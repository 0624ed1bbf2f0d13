import NorbitDriver.Conversions.ImageConsistency
import NorbitDriver.Conversions.Reuse

/-!
# What the other data callbacks publish

Apart from the point cloud, each data callback makes the message of the payload,
converts it into a new message where the topic asks for another type, and
publishes once. The three messages of a bathymetric payload carry the header of
the same ping and have an entry for each of its beams.
-/

namespace NorbitDriver

open Conversions

variable {D E R : Type*}

/-- The message that `bathymetryCallback` publishes. -/
def bathymetryCallback (sensor_frame : List Char) (data : BathymetricData) :
    Option BathymetricStamped :=
  data.getRosMsg sensor_frame

/-- The message that `rangesCallback` publishes. -/
def rangesCallback [Zero D] [Zero R] [Mul R] [Div R] [OfScientific R]
    (A : Arithmetic R) (codes : DetectionCode → D) (sensor_frame : List Char)
    (data : BathymetricData) : Option (SonarRanges D R) :=
  (data.getRosMsg sensor_frame).bind fun bathy_msg =>
    bathymetric2SonarRanges A codes bathy_msg .fresh

/-- The message that `detectionsCallback` publishes. -/
def detectionsCallback [Zero D] [Zero R] [Div R] (A : Arithmetic R)
    (codes : DetectionCode → D) (sensor_frame : List Char)
    (data : BathymetricData) : Option (SonarDetections D R) :=
  (data.getRosMsg sensor_frame).bind fun bathy_msg =>
    bathymetric2SonarDetections A codes bathy_msg .fresh

/-- The message that `norbitWatercolumnCallback` publishes. -/
def norbitWatercolumnCallback (sensor_frame : List Char)
    (data : WaterColumnData) : Option WaterColumnStamped :=
  data.getRosMsg sensor_frame

/-- The message that `watercolumnCallback` publishes. -/
def watercolumnCallback (constants : ElementType → E) (dtype : E)
    (sensor_frame : List Char) (data : WaterColumnData) :
    Option (RawSonarImage E) :=
  (data.getRosMsg sensor_frame).bind fun norb_wc_msg =>
    norbitWC2RawSonarImage constants norb_wc_msg (.fresh dtype)

/-- The messages published for a bathymetric payload describe the same ping. -/
structure SamePing (msg : BathymetricStamped) (ranges : SonarRanges D R)
    (detections : SonarDetections D R) : Prop where
  detections_length : msg.bathy.detections.length =
    msg.bathy.bathymetric_header.n.toNat
  ranges_header : ranges.header = msg.header
  detections_header : detections.header = msg.header
  flags : ranges.flags = detections.flags
  intensities : ranges.intensities = detections.intensities
  ranges_beams : ∀ k ∈ ranges.beamCounts,
    k = msg.bathy.bathymetric_header.n.toNat
  detections_beams : ∀ k ∈ detections.beamCounts,
    k = msg.bathy.bathymetric_header.n.toNat

/-- Each of the callbacks publishes one message for a complete payload. -/
theorem published_of_complete [Zero D] [Zero R] [Mul R] [Div R]
    [OfScientific R] (A : Arithmetic R) (codes : DetectionCode → D)
    (sensor_frame : List Char) {data : BathymetricData}
    (hd : data.Complete) :
    ∃ msg ranges detections,
      bathymetryCallback sensor_frame data = some msg ∧
      rangesCallback A codes sensor_frame data = some ranges ∧
      detectionsCallback A codes sensor_frame data = some detections ∧
      SamePing msg ranges detections := by
  have hsome := (data.getRosMsg_isSome_iff sensor_frame).mpr hd
  obtain ⟨msg, hmsg⟩ := Option.isSome_iff_exists.mp hsome
  have hlen : msg.bathy.detections.length =
      msg.bathy.bathymetric_header.n.toNat := by
    obtain ⟨h, l, -, hl, rfl⟩ :=
      BathymetricData.getRosMsg_eq_some_iff.mp hmsg
    exact Bytes.Layout.length_of_loadArray? _ hl
  have hle := Nat.le_of_eq hlen.symm
  have hranges := (bathymetric2SonarRanges_eq_some_iff A codes).mpr
    ⟨hle, (rfl : rangesOf A codes msg .fresh = _)⟩
  have hdetections := bathymetric2SonarDetections_eq_some A codes hle .fresh
  refine ⟨msg, rangesOf A codes msg .fresh, detectionsOf A codes msg .fresh,
    hmsg, ?_, ?_, hlen, rfl, rfl, rfl, rfl, ?_, ?_⟩
  · rw [rangesCallback, hmsg, Option.bind_some, hranges]
  · rw [detectionsCallback, hmsg, Option.bind_some, hdetections]
  · exact beamCounts_rangesOf A codes hlen _
  · exact beamCounts_detectionsOf A codes hlen _

/-- The image is published for the payloads for which the message is. -/
theorem watercolumnCallback_isSome_iff (constants : ElementType → E)
    (dtype : E) (sensor_frame : List Char) {comm_hdr : CommonHeader}
    {bits : List UInt8} {d : WaterColumnData}
    (hd : WaterColumnData.setBits comm_hdr bits = some d) :
    (watercolumnCallback constants dtype sensor_frame d).isSome ↔
      (norbitWatercolumnCallback sensor_frame d).isSome := by
  rw [watercolumnCallback, norbitWatercolumnCallback]
  cases hmsg : d.getRosMsg sensor_frame with
  | none => rfl
  | some msg =>
      have hlen := (lengths_of_getRosMsg hd hmsg).2
      rw [Option.bind_some, norbitWC2RawSonarImage_eq_some constants hlen]
      rfl

end NorbitDriver
