import Mathlib.Algebra.Order.Ring.Rat
import Mathlib.Algebra.Field.Rat
import NorbitDriver.Connection.Frame
import NorbitDriver.Node.PointCloud

/-!
# Reads behind the payload

The decoders follow pointers into the payload as far as the counts in it say,
and nothing compares these counts with the number of bytes received. Of the
frames that pass the header check and the CRC, the ones whose reads stay inside
the payload are those that hold what they declare.
-/

namespace NorbitDriver

open Bytes

variable {R : Type*} [Field R] [LinearOrder R]

/-- Every read of a bathymetric payload stays inside it: the points, the
message and the point cloud. -/
def BathymetricData.ReadsInside (A : Arithmetic R) (d : BathymetricData) :
    Prop :=
  (∀ h, d.bathymetricHeader = some h →
    ∀ i < h.n.toNat, (d.data i).isSome) ∧
  ∀ frame_id, (d.getRosMsg frame_id).isSome ∧
    (pointcloudCallback A frame_id d).isSome

/-- Every read of a water-column payload stays inside it: the header that
`setBits` and `dataSize` look at, the pixels and the beam directions. -/
def WaterColumnData.ReadsInside (comm_hdr : CommonHeader)
    (bits : List UInt8) : Prop :=
  ∃ d, setBits comm_hdr bits = some d ∧ d.water_column_header.isSome ∧
    ∀ frame_id, (d.getRosMsg frame_id).isSome

/-- Every read of the payload of a frame stays inside it. -/
def Frame.ReadsInside (A : Arithmetic R) (f : Frame) : Prop :=
  (f.commonHeader.type = 1 →
    (BathymetricData.setBits f.commonHeader f.payload).ReadsInside A) ∧
  (f.commonHeader.type = 2 →
    WaterColumnData.ReadsInside f.commonHeader f.payload)

theorem BathymetricData.readsInside_iff_complete (A : Arithmetic R)
    (d : BathymetricData) : d.ReadsInside A ↔ d.Complete := by
  constructor
  · intro hd
    exact (d.getRosMsg_isSome_iff []).mp (hd.2 []).1
  · intro hd
    refine ⟨fun h hh i hi => hd.data_isSome hh hi, fun frame_id => ⟨?_, ?_⟩⟩
    · exact (d.getRosMsg_isSome_iff frame_id).mpr hd
    · have hcomplete := hd
      obtain ⟨h, hh, -⟩ := hcomplete
      rw [pointcloudCallback_eq_some A frame_id hd hh]
      rfl

theorem WaterColumnData.readsInside_iff_complete (comm_hdr : CommonHeader)
    (bits : List UInt8) : ReadsInside comm_hdr bits ↔ Complete bits := by
  constructor
  · intro h
    obtain ⟨d, hd, -, hmsg⟩ := h
    exact (getRosMsg_setBits_isSome_iff hd []).mp (hmsg [])
  · intro hc
    refine ⟨_, setBits_of_complete comm_hdr hc, ?_, fun frame_id => ?_⟩
    · obtain ⟨h, hh, -⟩ := hc
      rw [water_column_header]
      exact Option.isSome_iff_exists.mpr ⟨h, hh⟩
    · exact (getRosMsg_setBits_isSome_iff (setBits_of_complete comm_hdr hc)
        frame_id).mpr hc

/-- The reads of a frame stay inside its payload exactly when the payload is
as long as the counts in it, and the size the code computes, declare. -/
theorem Frame.readsInside_iff_declared (A : Arithmetic R) (f : Frame) :
    f.ReadsInside A ↔ f.Declared := by
  rw [ReadsInside, BathymetricData.readsInside_iff_complete,
    WaterColumnData.readsInside_iff_complete]
  rfl

namespace Frame

/-- A bathymetric frame of version 8 that announces a point and ends behind
the header. -/
def truncated : Frame where
  header := [0xEF, 0xBE, 0xAD, 0xDE, 1, 0, 0, 0, 136, 0, 0, 0, 8, 0, 0, 0,
    0, 0, 0, 0, 80, 109, 0, 23]
  payload := [0, 0, 0, 0, 0, 0, 0, 0, 1, 0, 0, 0, 0, 0, 0, 0] ++
    List.replicate 96 0
  header_length := rfl
  preable := by decide
  size := by decide

theorem truncated_supported : truncated.Supported := by
  decide

/-- The register after half of the payload, and after the other half. -/
theorem truncated_intact : truncated.Intact := by
  have hfront : (truncated.payload.take 56).foldl
      (CRC.remainderByte 0xEDB88320) 0xFFFFFFFF = 294041194 := by
    decide +kernel
  have hback : (truncated.payload.drop 56).foldl
      (CRC.remainderByte 0xEDB88320) 294041194 = 3909063343 := by
    decide +kernel
  have hpayload := CRC.remainder_of_take_drop 56 hfront hback
  exact intact_of_remainder hpayload (by decide)

/-- The point that the truncated frame announces lies behind its payload. -/
theorem truncated_not_readsInside :
    truncated.Supported ∧ truncated.Intact ∧
      ¬ truncated.ReadsInside (⟨fun _ => 0, id, id⟩ : Arithmetic ℚ) := by
  refine ⟨truncated_supported, truncated_intact, fun hinside => ?_⟩
  have hcomplete := (BathymetricData.readsInside_iff_complete _ _).mp
    (hinside.1 (by decide))
  obtain ⟨header, hheader, hle⟩ := hcomplete
  have hread := BathymetricData.bathymetricHeader_eq_some_iff.mp hheader
  have hn : header.n = 1 := by
    rw [← hread.2]
    decide +kernel
  rw [hn] at hle
  exact absurd hle (by decide)

end Frame

end NorbitDriver
