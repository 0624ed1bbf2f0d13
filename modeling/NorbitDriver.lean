import NorbitDriver.Transition.Machine
import NorbitDriver.Transition.Tally
import NorbitDriver.Transition.Simulation
import NorbitDriver.Transition.Interleave
import NorbitDriver.Containers.Loop
import NorbitDriver.Containers.Backlog
import NorbitDriver.Containers.Retry
import NorbitDriver.Text.Line
import NorbitDriver.Text.Substring
import NorbitDriver.Text.Erasure
import NorbitDriver.Text.Tokens
import NorbitDriver.Bytes.LittleEndian
import NorbitDriver.Bytes.Layout
import NorbitDriver.Bytes.Binary32
import NorbitDriver.Bytes.ShiftRegister
import NorbitDriver.Bytes.Division
import NorbitDriver.Bytes.ByteTable
import NorbitDriver.Interfaces.Norbit
import NorbitDriver.Interfaces.Arithmetic
import NorbitDriver.Interfaces.MarineAcoustic
import NorbitDriver.Types.CRC
import NorbitDriver.Types.CRCTemplate
import NorbitDriver.Types.CRCDivision
import NorbitDriver.Types.CRCTable
import NorbitDriver.Types.CRCParts
import NorbitDriver.Types.BathymetricData
import NorbitDriver.Types.WaterColumnData
import NorbitDriver.Types.RoundTrip
import NorbitDriver.Types.Pings
import NorbitDriver.Types.Message
import NorbitDriver.Connection.DataSocket
import NorbitDriver.Connection.Frame
import NorbitDriver.Connection.Segmentation
import NorbitDriver.Connection.Skipping
import NorbitDriver.Connection.CommandSocket
import NorbitDriver.Connection.Operations
import NorbitDriver.Connection.Lines
import NorbitDriver.Connection.Conserved
import NorbitDriver.Connection.Responses
import NorbitDriver.Connection.Greeting
import NorbitDriver.Connection.SendCmd
import NorbitDriver.Connection.Keys
import NorbitDriver.Connection.Deadline
import NorbitDriver.Connection.Payload
import NorbitDriver.Connection.Connection
import NorbitDriver.Connection.Slices
import NorbitDriver.Connection.Failures
import NorbitDriver.Connection.Handles
import NorbitDriver.Connection.Chains
import NorbitDriver.Connection.Reception
import NorbitDriver.Conversions.RawSonarImage
import NorbitDriver.Conversions.ImageConsistency
import NorbitDriver.Node.PointCloud
import NorbitDriver.Node.Clouds
import NorbitDriver.Node.Geometry
import NorbitDriver.Node.Publications
import NorbitDriver.Node.Decoding
import NorbitDriver.Node.Settings
import NorbitDriver.Node.Lifecycle
import NorbitDriver.Node.Sound
import NorbitDriver.Node.Steps
import NorbitDriver.Node.Pointers
import NorbitDriver.Node.OrderlyStop
import NorbitDriver.Node.Delivery
import NorbitDriver.Node.Projection
import NorbitDriver.Node.Registered
import NorbitDriver.Node.Startup
import NorbitDriver.Node.Activation
import NorbitDriver.Node.Telemetry
import NorbitDriver.Conversions.Bathymetric
import NorbitDriver.Conversions.Reuse
import NorbitDriver.Conversions.Bag
