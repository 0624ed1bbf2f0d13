import NorbitDriver.Interfaces.Norbit

/-!
# The messages of `marine_acoustic_msgs`

The messages the driver converts to, with the fields it assigns. The driver
assigns binary32 values to the frequency and the sound speed, which are wider;
they are kept here as the value that was assigned. The codes that
`SonarImageData` has for the element types, and `DetectionFlag` for the
detections, are not known to the driver's sources, and the messages are stated
over an arbitrary type `D` of codes. What the driver computes rather than copies
is in a type `R` of numbers.
-/

namespace NorbitDriver

open Bytes

/-- The types an element of a sonar image can have. -/
inductive ElementType
  | uint8
  | int8
  | uint16
  | int16
  | uint32
  | int32
  | uint64
  | int64
  | float32
  | float64
deriving DecidableEq

/-- The width of an element in bytes. -/
def ElementType.width : ElementType → ℕ
  | uint8 => 1
  | int8 => 1
  | uint16 => 2
  | int16 => 2
  | uint32 => 4
  | int32 => 4
  | uint64 => 8
  | int64 => 8
  | float32 => 4
  | float64 => 8

/-- `PingInfo.msg`. -/
structure PingInfo where
  frequency : Binary32
  sound_speed : Binary32
  tx_beamwidths : List Binary32
  rx_beamwidths : List Binary32
deriving DecidableEq

/-- `SonarImageData.msg`. -/
structure SonarImageData (D : Type*) where
  is_bigendian : Bool
  dtype : D
  beam_count : UInt32
  data : List UInt8
deriving DecidableEq

/-- `RawSonarImage.msg`. -/
structure RawSonarImage (D : Type*) where
  header : Header
  ping_info : PingInfo
  sample_rate : Binary32
  samples_per_beam : UInt32
  sample0 : UInt32
  tx_delays : List Binary32
  tx_angles : List Binary32
  rx_angles : List Binary32
  image : SonarImageData D
deriving DecidableEq

/-- A default-constructed message; `dtype` is the code that is zero. -/
def RawSonarImage.fresh {D : Type*} (dtype : D) : RawSonarImage D where
  header := { stamp := ⟨0⟩, frame_id := [] }
  ping_info :=
    { frequency := ⟨0⟩
      sound_speed := ⟨0⟩
      tx_beamwidths := []
      rx_beamwidths := [] }
  sample_rate := ⟨0⟩
  samples_per_beam := 0
  sample0 := 0
  tx_delays := []
  tx_angles := []
  rx_angles := []
  image := { is_bigendian := false, dtype, beam_count := 0, data := [] }

/-- The codes of `DetectionFlag.msg` that the driver assigns. -/
inductive DetectionCode
  | DETECT_OK
  | DETECT_BAD_SONAR
deriving DecidableEq

/-- `DetectionFlag.msg`. -/
structure DetectionFlag (D : Type*) where
  flag : D
deriving DecidableEq

/-- `geometry_msgs/Vector3`. -/
structure Vector3 (R : Type*) where
  x : R
  y : R
  z : R
deriving DecidableEq

/-- `SonarRanges.msg`. -/
structure SonarRanges (D R : Type*) where
  header : Header
  ping_info : PingInfo
  flags : List (DetectionFlag D)
  transmit_delays : List Binary32
  intensities : List Binary32
  beam_unit_vec : List (Vector3 R)
  ranges : List R
deriving DecidableEq

/-- `SonarDetections.msg`. -/
structure SonarDetections (D R : Type*) where
  header : Header
  ping_info : PingInfo
  flags : List (DetectionFlag D)
  two_way_travel_times : List R
  tx_delays : List Binary32
  intensities : List Binary32
  tx_angles : List Binary32
  rx_angles : List Binary32
deriving DecidableEq

/-- A default-constructed message. -/
def SonarRanges.fresh {D R : Type*} : SonarRanges D R where
  header := { stamp := ⟨0⟩, frame_id := [] }
  ping_info :=
    { frequency := ⟨0⟩
      sound_speed := ⟨0⟩
      tx_beamwidths := []
      rx_beamwidths := [] }
  flags := []
  transmit_delays := []
  intensities := []
  beam_unit_vec := []
  ranges := []

/-- A default-constructed message. -/
def SonarDetections.fresh {D R : Type*} : SonarDetections D R where
  header := { stamp := ⟨0⟩, frame_id := [] }
  ping_info :=
    { frequency := ⟨0⟩
      sound_speed := ⟨0⟩
      tx_beamwidths := []
      rx_beamwidths := [] }
  flags := []
  two_way_travel_times := []
  tx_delays := []
  intensities := []
  tx_angles := []
  rx_angles := []

end NorbitDriver
