import NorbitDriver.Connection.Frame
import NorbitDriver.Conversions.RawSonarImage

/-!
# Consistency of water-column images

A consumer of a `RawSonarImage` indexes its data by beam, sample and element
width. The driver takes the length of the data from the 32-bit product of the
counts and a switch over the widths, and the element type of the image from a
second switch. They agree exactly for the listed element types and for counts
whose product fits in 32 bits.
-/

namespace NorbitDriver

open Bytes Conversions WaterColumnData

namespace ElementType

/-- The code of an element type in a water-column header. -/
def dtype : ElementType → UInt32
  | uint8 => WaterColumnHeader.DTYPE_UINT8
  | int8 => WaterColumnHeader.DTYPE_INT8
  | uint16 => WaterColumnHeader.DTYPE_UINT16
  | int16 => WaterColumnHeader.DTYPE_INT16
  | uint32 => WaterColumnHeader.DTYPE_UINT32
  | int32 => WaterColumnHeader.DTYPE_INT32
  | uint64 => WaterColumnHeader.DTYPE_UINT64
  | int64 => WaterColumnHeader.DTYPE_INT64
  | float32 => WaterColumnHeader.DTYPE_FLOAT32
  | float64 => WaterColumnHeader.DTYPE_FLOAT64

/-- The width switch knows every element type. -/
theorem dataSize_dtype (t : ElementType) :
    (WaterColumnData.dataSize t.dtype).toNat = t.width := by
  cases t <;> rfl

/-- So does the switch over the codes of the image. -/
theorem imageDtype_dtype {D : Type*} (constants : ElementType → D)
    (t : ElementType) (old : D) :
    imageDtype constants t.dtype old = constants t := by
  cases t <;> rfl

theorem dtype_mem (t : ElementType) : t.dtype ∈ WaterColumnHeader.dtypes := by
  cases t <;> decide

theorem width_pos (t : ElementType) : 0 < t.width := by
  cases t <;> decide

/-- The listed codes are those of the element types. -/
theorem exists_dtype_eq {dtype : UInt32}
    (h : dtype ∈ WaterColumnHeader.dtypes) : ∃ t : ElementType,
      t.dtype = dtype := by
  simp only [WaterColumnHeader.dtypes, List.mem_cons, List.not_mem_nil,
    or_false] at h
  rcases h with h | h | h | h | h | h | h | h | h | h
  · exact ⟨uint8, h.symm⟩
  · exact ⟨int8, h.symm⟩
  · exact ⟨uint16, h.symm⟩
  · exact ⟨int16, h.symm⟩
  · exact ⟨uint32, h.symm⟩
  · exact ⟨int32, h.symm⟩
  · exact ⟨uint64, h.symm⟩
  · exact ⟨int64, h.symm⟩
  · exact ⟨float32, h.symm⟩
  · exact ⟨float64, h.symm⟩

end ElementType

/-- An image made from a water-column header: its code and the one in the
header stand for the same element type, and the data and the arrays have the
lengths that the counts and this type give. -/
structure SelfConsistent {D : Type*} (constants : ElementType → D)
    (h : WaterColumnHeader) (out : RawSonarImage D) : Prop where
  data : ∃ t : ElementType, t.dtype = h.dtype ∧
    constants t = out.image.dtype ∧
    out.image.data.length =
      out.image.beam_count.toNat * out.samples_per_beam.toNat * t.width
  tx_delays : out.tx_delays.length = out.image.beam_count.toNat
  tx_angles : out.tx_angles.length = out.image.beam_count.toNat
  rx_angles : out.rx_angles.length = out.image.beam_count.toNat

/-- The code makes a self-consistent image of a water-column frame, whatever
the output held before. -/
def ImageConsistent {D : Type*} (constants : ElementType → D) (f : Frame) :
    Prop :=
  ∀ (frame_id : List Char) (d : WaterColumnData) (msg : WaterColumnStamped)
    (out : RawSonarImage D), setBits f.commonHeader f.payload = some d →
    d.getRosMsg frame_id = some msg →
    ∃ image, norbitWC2RawSonarImage constants msg out = some image ∧
      SelfConsistent constants msg.water_column.water_column_header image

/-- The counts and the element type are such that the size of the pixels can
be computed in 32 bits. -/
def Countable (h : WaterColumnHeader) : Prop :=
  h.dtype ∈ WaterColumnHeader.dtypes ∧ h.n.toNat * h.m.toNat < 2 ^ 32

instance (h : WaterColumnHeader) : Decidable (Countable h) := by
  unfold Countable
  infer_instance

/-- The 32-bit product is the product of the counts only when it fits. -/
theorem pixel_data_size_eq_iff {h : WaterColumnHeader} {t : ElementType}
    (ht : t.dtype = h.dtype) :
    (pixel_data_size h).toNat = h.n.toNat * h.m.toNat * t.width ↔
      h.n.toNat * h.m.toNat < 2 ^ 32 := by
  have hpos := t.width_pos
  rw [pixel_data_size_toNat, ← ht, t.dataSize_dtype, Nat.mul_comm h.m.toNat]
  constructor
  · intro heq
    rw [← Nat.eq_of_mul_eq_mul_right hpos heq]
    exact Nat.mod_lt _ (by decide)
  · intro hlt
    rw [Nat.mod_eq_of_lt hlt]

/-- The image of a message whose arrays have the computed lengths. -/
theorem selfConsistent_imageOf_iff {D : Type*} (constants : ElementType → D)
    {msg : WaterColumnStamped} (out : RawSonarImage D)
    (hdata : msg.water_column.pixel_data.length =
      (pixel_data_size msg.water_column.water_column_header).toNat)
    (hlen : msg.water_column.beam_directions.length =
      msg.water_column.water_column_header.n.toNat) :
    SelfConsistent constants msg.water_column.water_column_header
        (imageOf constants msg out) ↔
      Countable msg.water_column.water_column_header := by
  constructor
  · intro h
    obtain ⟨t, ht, -, hlength⟩ := h.data
    have hsize := hdata.symm.trans hlength
    exact ⟨ht ▸ t.dtype_mem, (pixel_data_size_eq_iff ht).mp hsize⟩
  · intro h
    obtain ⟨t, ht⟩ := ElementType.exists_dtype_eq h.1
    refine ⟨⟨t, ht, ?_, ?_⟩, ?_, ?_, hlen⟩
    · rw [imageOf, ← ht, t.imageDtype_dtype]
    · exact hdata.trans ((pixel_data_size_eq_iff ht).mpr h.2)
    · exact List.length_replicate
    · exact List.length_replicate

/-- The lengths of the arrays of a decoded message. -/
theorem lengths_of_getRosMsg {comm_hdr : CommonHeader} {bits : List UInt8}
    {d : WaterColumnData} {frame_id : List Char} {msg : WaterColumnStamped}
    (hd : setBits comm_hdr bits = some d)
    (hmsg : d.getRosMsg frame_id = some msg) :
    msg.water_column.pixel_data.length =
        (pixel_data_size msg.water_column.water_column_header).toNat ∧
      msg.water_column.beam_directions.length =
        msg.water_column.water_column_header.n.toNat := by
  obtain ⟨h, pixels, directions, -, hpixels, hdirections, hfields⟩ :=
    (getRosMsg_setBits_eq_some_iff hd).mp hmsg
  rw [hfields]
  exact ⟨Layout.length_of_loadArray? _ hpixels,
    Layout.length_of_loadArray? _ hdirections⟩

/-- What the code makes of a message whose reads stay inside the payload. -/
theorem selfConsistent_of_getRosMsg {D : Type*} (constants : ElementType → D)
    {comm_hdr : CommonHeader} {bits : List UInt8} {d : WaterColumnData}
    {frame_id : List Char} {msg : WaterColumnStamped} (out : RawSonarImage D)
    (hd : setBits comm_hdr bits = some d)
    (hmsg : d.getRosMsg frame_id = some msg) :
    (∃ image, norbitWC2RawSonarImage constants msg out = some image ∧
        SelfConsistent constants msg.water_column.water_column_header
          image) ↔
      Countable msg.water_column.water_column_header := by
  obtain ⟨hdata, hlen⟩ := lengths_of_getRosMsg hd hmsg
  rw [norbitWC2RawSonarImage_eq_some constants hlen,
    ← selfConsistent_imageOf_iff constants out hdata hlen]
  constructor
  · intro h
    obtain ⟨image, himage, hconsistent⟩ := h
    rwa [Option.some.inj himage]
  · intro h
    exact ⟨_, rfl, h⟩

/-- The header at the front of a payload. -/
def payloadHeader (f : Frame) : WaterColumnHeader :=
  WaterColumnHeader.layout.read (f.payload.take 168)

/-- The header of a decoded message is the one at the front of the payload. -/
theorem header_of_getRosMsg {f : Frame} {d : WaterColumnData}
    {frame_id : List Char} {msg : WaterColumnStamped}
    (hd : setBits f.commonHeader f.payload = some d)
    (hmsg : d.getRosMsg frame_id = some msg) :
    msg.water_column.water_column_header = payloadHeader f := by
  obtain ⟨h, pixels, directions, hh, -, -, hfields⟩ :=
    (getRosMsg_setBits_eq_some_iff hd).mp hmsg
  have hread := ((WaterColumnHeader.layout.load?_eq_some_iff).mp hh).2
  rw [hfields]
  exact hread.symm

/-- The image of a water-column frame whose reads stay inside the payload is
self-consistent exactly for a listed element type and counts whose product
fits in 32 bits. -/
theorem imageConsistent_iff_countable {D : Type*}
    (constants : ElementType → D) {f : Frame} (hc : Complete f.payload) :
    ImageConsistent constants f ↔ Countable (payloadHeader f) := by
  constructor
  · intro h
    have hd := setBits_of_complete f.commonHeader hc
    obtain ⟨msg, hmsg⟩ := Option.isSome_iff_exists.mp
      ((getRosMsg_setBits_isSome_iff hd []).mpr hc)
    have himage := h [] _ msg (.fresh (constants .uint8)) hd hmsg
    rw [← header_of_getRosMsg hd hmsg]
    exact (selfConsistent_of_getRosMsg constants _ hd hmsg).mp himage
  · intro h frame_id d msg out hd hmsg
    rw [← header_of_getRosMsg hd hmsg] at h
    exact (selfConsistent_of_getRosMsg constants out hd hmsg).mpr h

namespace Frame

/-- A water-column frame that announces two beams of `2 ^ 31` samples of type
`uint8`, and holds their directions. -/
def oversized : Frame where
  header := [0xEF, 0xBE, 0xAD, 0xDE, 2, 0, 0, 0, 200, 0, 0, 0, 9, 0, 0, 0,
    0, 0, 0, 0, 144, 3, 53, 38]
  payload := [0, 0, 0, 0, 0, 0, 0, 0, 2, 0, 0, 0, 0, 0, 0, 128] ++
    List.replicate 160 0
  header_length := rfl
  preable := by decide
  size := by decide +kernel

theorem oversized_supported : oversized.Supported := by
  decide

theorem oversized_complete : Complete oversized.payload := by
  refine ⟨WaterColumnHeader.layout.read (oversized.payload.take 168), ?_, ?_⟩
  · decide +kernel
  · decide +kernel

/-- The register after the first 56 bytes of the payload, and after each of
the three stretches of zeros behind them. -/
theorem oversized_intact : oversized.Intact := by
  have hfirst : (oversized.payload.take 56).foldl
      (CRC.remainderByte 0xEDB88320) 0xFFFFFFFF = 3981330701 := by
    decide +kernel
  have hsecond : ((oversized.payload.drop 56).take 56).foldl
      (CRC.remainderByte 0xEDB88320) 3981330701 = 2462029177 := by
    decide +kernel
  have hthird : (((oversized.payload.drop 56).drop 56).take 56).foldl
      (CRC.remainderByte 0xEDB88320) 2462029177 = 1231313682 := by
    decide +kernel
  have hlast : (((oversized.payload.drop 56).drop 56).drop 56).foldl
      (CRC.remainderByte 0xEDB88320) 1231313682 = 3653958767 := by
    decide +kernel
  have hzeros := CRC.remainder_of_take_drop 56 hsecond
    (CRC.remainder_of_take_drop 56 hthird hlast)
  have hpayload := CRC.remainder_of_take_drop 56 hfirst hzeros
  exact intact_of_remainder hpayload (by decide)

end Frame

/-- A frame of one beam with two samples of type `float64` gives a
self-consistent image. -/
theorem image_imageConsistent :
    Frame.image.Supported ∧ Frame.image.Intact ∧
      ImageConsistent id Frame.image := by
  have hc := Frame.image_declared.2 (by decide)
  refine ⟨Frame.image_supported, Frame.image_intact, ?_⟩
  exact (imageConsistent_iff_countable id hc).mpr (by decide +kernel)

/-- The 32-bit product of the counts of the oversized frame is zero, and its
image has no data. -/
theorem oversized_not_imageConsistent :
    Frame.oversized.Supported ∧ Frame.oversized.Intact ∧
      Frame.oversized.commonHeader.type = 2 ∧
      Complete Frame.oversized.payload ∧
      ¬ ImageConsistent id Frame.oversized := by
  have hc := Frame.oversized_complete
  refine ⟨Frame.oversized_supported, Frame.oversized_intact, by decide, hc, ?_⟩
  intro hconsistent
  have hd := setBits_of_complete Frame.oversized.commonHeader hc
  obtain ⟨msg, hmsg⟩ := Option.isSome_iff_exists.mp
    ((getRosMsg_setBits_isSome_iff hd []).mpr hc)
  have himage := hconsistent [] _ msg (.fresh .uint8) hd hmsg
  have hcountable := (selfConsistent_of_getRosMsg id _ hd hmsg).mp himage
  rw [header_of_getRosMsg hd hmsg] at hcountable
  exact absurd hcountable (by decide +kernel)

end NorbitDriver
