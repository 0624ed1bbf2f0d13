import NorbitDriver.Types.BathymetricData
import NorbitDriver.Types.WaterColumnData

/-!
# Decoding loses nothing

Written back in the order of the message definitions, the fields of a decoded
message are the front of the payload it was decoded from. For a water-column
payload this includes that the 32-bit product of the two counts is the exact
product: a payload that holds `n * m` pixels has fewer than `2 ^ 32` bytes,
because its length is announced in a 32-bit size field.
-/

namespace NorbitDriver

open Bytes

/-- The payload of a frame: with the common header in front of it, its length
fits the size field. -/
structure Payload where
  bytes : List UInt8
  fits : bytes.length + 24 < 2 ^ 32

/-- The fields of a message in the order of the message definitions. -/
def BathymetricStamped.write (msg : BathymetricStamped) : List UInt8 :=
  BathymetricHeader.layout.write msg.bathy.bathymetric_header ++
    BathymetricPoint.layout.writeList msg.bathy.detections

/-- The fields of a message in the order of the message definitions. -/
def WaterColumnStamped.write (msg : WaterColumnStamped) : List UInt8 :=
  WaterColumnHeader.layout.write msg.water_column.water_column_header ++
    (Layout.uint8.writeList msg.water_column.pixel_data ++
      Layout.binary32.writeList msg.water_column.beam_directions)

namespace BathymetricData

/-- The count of points in the header of a payload. -/
theorem n_of_load? {bits : List UInt8} {n : UInt32} {h : BathymetricHeader}
    (hn : Layout.uint32.load? bits 8 = some n)
    (hh : BathymetricHeader.layout.load? bits 0 = some h) : h.n = n := by
  have hload := BathymetricHeader.layout_n.load? hh
  rw [Nat.zero_add, hn] at hload
  exact (Option.some.inj hload).symm

/-- A payload that holds the points it announces is decoded into as many
points, and can be written back from them. -/
theorem getRosMsg_lossless {comm_hdr : CommonHeader} {bits : List UInt8}
    {n : UInt32} (hn : Layout.uint32.load? bits 8 = some n)
    (hle : 112 + 48 * n.toNat ≤ bits.length) (frame_id : List Char) :
    ∃ msg, (setBits comm_hdr bits).getRosMsg frame_id = some msg ∧
      msg.bathy.detections.length = n.toNat ∧
      msg.write = bits.take (112 + 48 * n.toNat) := by
  have hsome : (BathymetricHeader.layout.load? bits 0).isSome := by
    rw [Layout.load?_isSome_iff, BathymetricHeader.layout_width, Nat.zero_add]
    exact Nat.le_trans (Nat.le_add_right _ _) hle
  obtain ⟨h, hh⟩ := Option.isSome_iff_exists.mp hsome
  have hcount := n_of_load? hn hh
  have hcomplete : (setBits comm_hdr bits).Complete :=
    ⟨h, hh, hcount ▸ hle⟩
  have hmsg := (getRosMsg_isSome_iff _ frame_id).mpr hcomplete
  obtain ⟨msg, hmsg⟩ := Option.isSome_iff_exists.mp hmsg
  obtain ⟨h', detections, hh', hdetections, hfields⟩ :=
    getRosMsg_eq_some_iff.mp hmsg
  have heq : h' = h := by
    change BathymetricHeader.layout.load? bits 0 = some h' at hh'
    rw [hh, Option.some.injEq] at hh'
    exact hh'.symm
  subst heq
  change BathymetricPoint.layout.loadArray? bits 112 h'.n.toNat =
    some detections at hdetections
  rw [hcount] at hdetections
  have hfront := BathymetricHeader.layout.write_of_load? hh
  have hpoints := BathymetricPoint.layout.writeList_of_loadArray? hdetections
  refine ⟨msg, hmsg, ?_, ?_⟩
  · rw [hfields]
    exact Layout.length_of_loadArray? _ hdetections
  · rw [BathymetricStamped.write, hfields]
    change BathymetricHeader.layout.write h' ++
      BathymetricPoint.layout.writeList detections = _
    rw [hfront, hpoints, List.drop_zero, BathymetricHeader.layout_width,
      BathymetricPoint.layout_width, Nat.mul_comm n.toNat, List.take_add]

/-- A payload that has been written from a header and the points it announces
is decoded into them. -/
theorem getRosMsg_write (comm_hdr : CommonHeader) {h : BathymetricHeader}
    {detections : List BathymetricPoint}
    (hlen : detections.length = h.n.toNat) (frame_id : List Char) :
    (setBits comm_hdr (BathymetricHeader.layout.write h ++
        BathymetricPoint.layout.writeList detections)).getRosMsg frame_id =
      some
        { header := { stamp := h.time, frame_id }
          bathy :=
            { common_header := comm_hdr
              bathymetric_header := h
              detections } } := by
  have hwidth := BathymetricHeader.layout.write_length h
  rw [BathymetricHeader.layout_width] at hwidth
  rw [getRosMsg_eq_some_iff]
  refine ⟨h, detections, ?_, ?_, rfl⟩
  · rw [bathymetricHeader_eq_some_iff]
    change 112 ≤ (_ ++ _ : List UInt8).length ∧
      BathymetricHeader.layout.read ((_ ++ _ : List UInt8).take 112) = h
    rw [List.length_append, hwidth, List.take_left' hwidth,
      BathymetricHeader.layout.read_write]
    exact ⟨Nat.le_add_right _ _, rfl⟩
  · rw [Layout.loadArray?_eq_some_iff]
    change 112 + _ ≤ (_ ++ _ : List UInt8).length ∧
      BathymetricPoint.layout.readList _ ((_ ++ _ : List UInt8).drop 112) =
        detections
    rw [List.length_append, hwidth, Layout.writeList_length, hlen,
      List.drop_left' hwidth, ← hlen, Layout.readList_writeList]
    exact ⟨Nat.le_refl _, rfl⟩

end BathymetricData

namespace WaterColumnData

open WaterColumnHeader

/-- Pixels that fit in a payload are fewer than `2 ^ 32`, so their number is
the product the code computes. -/
theorem pixel_data_size_of_fits {h : WaterColumnHeader} {length : ℕ}
    (hdtype : h.dtype ∈ dtypes) (hfits : length < 2 ^ 32)
    (hle : h.n.toNat * h.m.toNat * (dataSize h.dtype).toNat ≤ length) :
    (pixel_data_size h).toNat =
      h.n.toNat * h.m.toNat * (dataSize h.dtype).toNat := by
  have hpos := (dataSize_pos_iff h.dtype).mpr hdtype
  have hproduct : h.n.toNat * h.m.toNat < 2 ^ 32 := by
    calc h.n.toNat * h.m.toNat
        ≤ h.n.toNat * h.m.toNat * (dataSize h.dtype).toNat :=
          Nat.le_mul_of_pos_right _ hpos
      _ ≤ length := hle
      _ < 2 ^ 32 := hfits
  rw [pixel_data_size_toNat, Nat.mul_comm h.m.toNat,
    Nat.mod_eq_of_lt hproduct]

/-- A payload that holds the pixels and the beam directions it announces is
decoded into as many, and can be written back from them. -/
theorem getRosMsg_lossless {comm_hdr : CommonHeader} {p : Payload}
    {n m dtype : UInt32} (hn : Layout.uint32.load? p.bytes 8 = some n)
    (hm : Layout.uint32.load? p.bytes 12 = some m)
    (htype : Layout.uint32.load? p.bytes 24 = some dtype)
    (hdtype : dtype ∈ dtypes)
    (hle : 168 + n.toNat * m.toNat * (dataSize dtype).toNat + 4 * n.toNat ≤
      p.bytes.length) (frame_id : List Char) :
    ∃ d msg, setBits comm_hdr p.bytes = some d ∧
      d.getRosMsg frame_id = some msg ∧
      msg.water_column.pixel_data.length =
        n.toNat * m.toNat * (dataSize dtype).toNat ∧
      msg.water_column.beam_directions.length = n.toNat ∧
      msg.write = p.bytes.take
        (168 + n.toNat * m.toNat * (dataSize dtype).toNat + 4 * n.toNat) := by
  have hfits := Nat.lt_of_add_right_lt p.fits
  have hroom : 168 ≤ p.bytes.length :=
    Nat.le_trans (Nat.le_trans (Nat.le_add_right _ _) (Nat.le_add_right _ _))
      hle
  have hheader : (WaterColumnHeader.layout.load? p.bytes 0).isSome := by
    rw [Layout.load?_isSome_iff]
    simpa using hroom
  obtain ⟨h, hh⟩ := Option.isSome_iff_exists.mp hheader
  have hd := setBits_of_header comm_hdr hh
  have hloadn := WaterColumnHeader.layout_n.load? hh
  have hloadm := WaterColumnHeader.layout_m.load? hh
  have hloadt := WaterColumnHeader.layout_dtype.load? hh
  rw [Nat.zero_add, hn, Option.some.injEq] at hloadn
  rw [Nat.zero_add, hm, Option.some.injEq] at hloadm
  rw [Nat.zero_add, htype, Option.some.injEq] at hloadt
  subst hloadn hloadm hloadt
  have hsize := pixel_data_size_of_fits hdtype hfits (by omega)
  rw [← hsize] at hle ⊢
  have hmsg := (getRosMsg_setBits_isSome_iff hd frame_id).mpr ⟨h, hh, hle⟩
  obtain ⟨msg, hmsg⟩ := Option.isSome_iff_exists.mp hmsg
  obtain ⟨h', pixels, directions, hh', hpixels, hdirections, hfields⟩ :=
    (getRosMsg_setBits_eq_some_iff hd).mp hmsg
  rw [hh, Option.some.injEq] at hh'
  subst hh'
  have hfront := WaterColumnHeader.layout.write_of_load? hh
  have hmiddle := Layout.uint8.writeList_of_loadArray? hpixels
  have hback := Layout.binary32.writeList_of_loadArray? hdirections
  refine ⟨_, msg, hd, hmsg, ?_, ?_, ?_⟩
  · rw [hfields]
    exact Layout.length_of_loadArray? _ hpixels
  · rw [hfields]
    exact Layout.length_of_loadArray? _ hdirections
  · rw [WaterColumnStamped.write, hfields]
    change WaterColumnHeader.layout.write h ++
      (Layout.uint8.writeList pixels ++
        Layout.binary32.writeList directions) = _
    rw [hfront, hmiddle, hback, List.drop_zero, WaterColumnHeader.layout_width,
      Layout.uint8_width, Layout.binary32_width, Nat.mul_one,
      Nat.mul_comm h.n.toNat 4, List.take_add, List.take_add,
      List.append_assoc]

end WaterColumnData

/-- Payload decoding is lossless and exact for both types of frames. -/
theorem getRosMsg_exact (comm_hdr : CommonHeader) (frame_id : List Char) :
    (∀ (bits : List UInt8) (n : UInt32),
      Layout.uint32.load? bits 8 = some n →
      112 + 48 * n.toNat ≤ bits.length →
      ∃ msg, (BathymetricData.setBits comm_hdr bits).getRosMsg frame_id =
          some msg ∧
        msg.bathy.detections.length = n.toNat ∧
        msg.write = bits.take (112 + 48 * n.toNat)) ∧
    (∀ (p : Payload) (n m dtype : UInt32),
      Layout.uint32.load? p.bytes 8 = some n →
      Layout.uint32.load? p.bytes 12 = some m →
      Layout.uint32.load? p.bytes 24 = some dtype →
      dtype ∈ WaterColumnHeader.dtypes →
      168 + n.toNat * m.toNat * (WaterColumnData.dataSize dtype).toNat +
        4 * n.toNat ≤ p.bytes.length →
      ∃ d msg, WaterColumnData.setBits comm_hdr p.bytes = some d ∧
        d.getRosMsg frame_id = some msg ∧
        msg.water_column.pixel_data.length =
          n.toNat * m.toNat * (WaterColumnData.dataSize dtype).toNat ∧
        msg.water_column.beam_directions.length = n.toNat ∧
        msg.write = p.bytes.take
          (168 + n.toNat * m.toNat * (WaterColumnData.dataSize dtype).toNat +
            4 * n.toNat)) := by
  refine ⟨?_, ?_⟩
  · intro bits n hn hle
    exact BathymetricData.getRosMsg_lossless hn hle frame_id
  · intro p n m dtype hn hm htype hdtype hle
    exact WaterColumnData.getRosMsg_lossless hn hm htype hdtype hle frame_id

/-- A payload of one detection and two bytes more, and a payload of one beam
with two samples of eight bytes. -/
theorem getRosMsg_exact_oneDetection :
    (∃ msg, (BathymetricData.setBits (CommonHeader.layout.read [])
        (BathymetricData.oneDetection ++ [7, 7])).getRosMsg [] = some msg ∧
      msg.bathy.detections.length = 1 ∧
      msg.write = BathymetricData.oneDetection) ∧
    (∃ d msg, WaterColumnData.setBits (CommonHeader.layout.read [])
        WaterColumnData.twoPixels = some d ∧ d.getRosMsg [] = some msg ∧
      msg.water_column.pixel_data.length = 16 ∧
      msg.water_column.beam_directions.length = 1 ∧
      msg.write = WaterColumnData.twoPixels) := by
  have hexact := getRosMsg_exact (CommonHeader.layout.read []) []
  refine ⟨?_, ?_⟩
  · obtain ⟨msg, hmsg, hlen, hwrite⟩ :=
      hexact.1 (BathymetricData.oneDetection ++ [7, 7]) 1 (by decide +kernel)
        (by decide +kernel)
    exact ⟨msg, hmsg, hlen, hwrite.trans (by decide +kernel)⟩
  · obtain ⟨d, msg, hd, hmsg, hpixels, hdirections, hwrite⟩ :=
      hexact.2 ⟨WaterColumnData.twoPixels, by decide +kernel⟩ 1 2 23
        (by decide +kernel) (by decide +kernel) (by decide +kernel)
        (by decide) (by decide +kernel)
    exact ⟨d, msg, hd, hmsg, hpixels, hdirections,
      hwrite.trans (by decide +kernel)⟩

end NorbitDriver
