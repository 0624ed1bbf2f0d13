import NorbitDriver.Interfaces.Norbit

/-!
# Water-column payloads

`WaterColumnData` keeps the payload of a water-column frame. `setBits` reads
the counts and the element type from the header, and nothing else of it, and
places the beam directions behind the pixels; the size of the pixels is a
product of two 32-bit counts, which is reduced modulo `2 ^ 32` before it is
widened. `getRosMsg` copies the whole header.
-/

namespace NorbitDriver

open Bytes

/-- `norbit_types::WaterColumnData`; the two pointers are the positions they
have in the payload `bits`. -/
structure WaterColumnData where
  comm_hdr : CommonHeader
  bits : List UInt8
  pixel_data : ℕ
  beam_directions : ℕ
deriving DecidableEq

namespace WaterColumnHeader

def DTYPE_UINT8 : UInt32 := 0

def DTYPE_INT8 : UInt32 := 1

def DTYPE_UINT16 : UInt32 := 2

def DTYPE_INT16 : UInt32 := 3

def DTYPE_UINT32 : UInt32 := 4

def DTYPE_INT32 : UInt32 := 5

def DTYPE_UINT64 : UInt32 := 6

def DTYPE_INT64 : UInt32 := 7

def DTYPE_FLOAT32 : UInt32 := 21

def DTYPE_FLOAT64 : UInt32 := 23

/-- The element types the message definition lists. -/
def dtypes : List UInt32 :=
  [DTYPE_UINT8, DTYPE_INT8, DTYPE_UINT16, DTYPE_INT16, DTYPE_UINT32,
    DTYPE_INT32, DTYPE_UINT64, DTYPE_INT64, DTYPE_FLOAT32, DTYPE_FLOAT64]

end WaterColumnHeader

namespace WaterColumnData

open WaterColumnHeader

/-- The width of an element; `0` for a value of `dtype` that is not listed. -/
def dataSize (dtype : UInt32) : UInt64 :=
  if dtype = DTYPE_UINT8 then 1
  else if dtype = DTYPE_INT8 then 1
  else if dtype = DTYPE_UINT16 then 2
  else if dtype = DTYPE_INT16 then 2
  else if dtype = DTYPE_UINT32 then 4
  else if dtype = DTYPE_INT32 then 4
  else if dtype = DTYPE_UINT64 then 8
  else if dtype = DTYPE_INT64 then 8
  else if dtype = DTYPE_FLOAT32 then 4
  else if dtype = DTYPE_FLOAT64 then 8
  else 0

/-- `m * n * dataSize()`: the first product is taken in 32 bits. -/
def pixelSize (m n dtype : UInt32) : UInt64 :=
  (m * n).toUInt64 * dataSize dtype

/-- The size of the pixels for the fields of a whole header. -/
def pixel_data_size (h : WaterColumnHeader) : UInt64 :=
  pixelSize h.m h.n h.dtype

def pixel_data_offset : ℕ := WaterColumnHeader.layout.sizeof

/-- `setBits` reads three words through the pointer to the header: `m` at
offset 12, `n` at offset 8 and, in `dataSize`, `dtype` at offset 24. -/
def setBits (comm_hdr : CommonHeader) (bits : List UInt8) :
    Option WaterColumnData := do
  let m ← Layout.uint32.load? bits 12
  let n ← Layout.uint32.load? bits 8
  let dtype ← Layout.uint32.load? bits 24
  let size := pixelSize m n dtype
  pure
    { comm_hdr, bits
      pixel_data := pixel_data_offset
      beam_directions := pixel_data_offset + size.toNat }

def water_column_header (d : WaterColumnData) : Option WaterColumnHeader :=
  WaterColumnHeader.layout.load? d.bits 0

def getRosMsg (d : WaterColumnData) (frame_id : List Char) :
    Option WaterColumnStamped := do
  let h ← d.water_column_header
  let size := pixel_data_size h
  let pixel_data ← Layout.uint8.loadArray? d.bits d.pixel_data size.toNat
  let beam_directions ←
    Layout.binary32.loadArray? d.bits d.beam_directions h.n.toNat
  pure
    { header := { stamp := h.time, frame_id }
      water_column :=
        { common_header := d.comm_hdr
          water_column_header := h
          pixel_data
          beam_directions } }

/-- The payload holds the header and the pixels and beam directions that the
code takes it to announce. -/
def Complete (bits : List UInt8) : Prop :=
  ∃ h, WaterColumnHeader.layout.load? bits 0 = some h ∧
    168 + (pixel_data_size h).toNat + 4 * h.n.toNat ≤ bits.length

/-- A listed element has between one and eight bytes. -/
theorem dataSize_of_mem {dtype : UInt32} (h : dtype ∈ dtypes) :
    0 < (dataSize dtype).toNat ∧ (dataSize dtype).toNat ≤ 8 := by
  have hall : dtypes.all (fun t =>
      decide (0 < (dataSize t).toNat ∧ (dataSize t).toNat ≤ 8)) = true := by
    decide
  exact of_decide_eq_true (List.all_eq_true.mp hall dtype h)

theorem dataSize_of_not_mem {dtype : UInt32} (h : dtype ∉ dtypes) :
    dataSize dtype = 0 := by
  simp only [dtypes, List.mem_cons, not_or] at h
  simp only [dataSize, h, if_false]

theorem dataSize_le (dtype : UInt32) : (dataSize dtype).toNat ≤ 8 := by
  by_cases h : dtype ∈ dtypes
  · exact (dataSize_of_mem h).2
  · rw [dataSize_of_not_mem h]
    exact Nat.zero_le 8

theorem dataSize_pos_iff (dtype : UInt32) :
    0 < (dataSize dtype).toNat ↔ dtype ∈ dtypes := by
  constructor
  · intro hpos
    by_contra h
    rw [dataSize_of_not_mem h] at hpos
    exact absurd hpos (by decide)
  · exact fun h => (dataSize_of_mem h).1

/-- The size of the pixels as the code computes it, in integers. -/
theorem pixel_data_size_toNat (h : WaterColumnHeader) :
    (pixel_data_size h).toNat =
      h.m.toNat * h.n.toNat % 2 ^ 32 * (dataSize h.dtype).toNat := by
  have hw := dataSize_le h.dtype
  have hp : h.m.toNat * h.n.toNat % 2 ^ 32 < 2 ^ 32 :=
    Nat.mod_lt _ (by decide)
  rw [pixel_data_size, pixelSize, UInt64.toNat_mul, UInt32.toNat_toUInt64,
    UInt32.toNat_mul]
  apply Nat.mod_eq_of_lt
  calc h.m.toNat * h.n.toNat % 2 ^ 32 * (dataSize h.dtype).toNat
      ≤ h.m.toNat * h.n.toNat % 2 ^ 32 * 8 := Nat.mul_le_mul_left _ hw
    _ < 2 ^ 32 * 8 := Nat.mul_lt_mul_of_pos_right hp (by decide)
    _ < 2 ^ 64 := by decide

theorem setBits_eq_some_iff {comm_hdr : CommonHeader} {bits : List UInt8}
    {d : WaterColumnData} :
    setBits comm_hdr bits = some d ↔
      ∃ m n dtype, Layout.uint32.load? bits 12 = some m ∧
        Layout.uint32.load? bits 8 = some n ∧
        Layout.uint32.load? bits 24 = some dtype ∧
        d =
          { comm_hdr, bits
            pixel_data := 168
            beam_directions := 168 + (pixelSize m n dtype).toNat } := by
  simp only [setBits, pixel_data_offset, WaterColumnHeader.layout_sizeof,
    Option.bind_eq_bind, Option.bind_eq_some_iff, Option.pure_def,
    Option.some.injEq]
  constructor
  · rintro ⟨m, hm, n, hn, dtype, hdtype, rfl⟩
    exact ⟨m, n, dtype, hm, hn, hdtype, rfl⟩
  · rintro ⟨m, n, dtype, hm, hn, hdtype, rfl⟩
    exact ⟨m, hm, n, hn, dtype, hdtype, rfl⟩

/-- The view of a payload that is long enough for the three words. -/
def view (comm_hdr : CommonHeader) (bits : List UInt8) : WaterColumnData where
  comm_hdr := comm_hdr
  bits := bits
  pixel_data := 168
  beam_directions := 168 +
    (pixelSize (Layout.uint32.read ((bits.drop 12).take 4))
      (Layout.uint32.read ((bits.drop 8).take 4))
      (Layout.uint32.read ((bits.drop 24).take 4))).toNat

theorem setBits_of_le (comm_hdr : CommonHeader) {bits : List UInt8}
    (h : 28 ≤ bits.length) :
    setBits comm_hdr bits = some (view comm_hdr bits) := by
  have hload : ∀ off, off ≤ 24 → Layout.uint32.load? bits off =
      some (Layout.uint32.read ((bits.drop off).take 4)) := by
    intro off hoff
    apply (Layout.load?_eq_some_iff _).mpr
    rw [Layout.uint32_width]
    exact ⟨by omega, rfl⟩
  exact setBits_eq_some_iff.mpr ⟨_, _, _, hload 12 (by decide),
    hload 8 (by decide), hload 24 (by decide), rfl⟩

/-- `setBits` reads up to the end of `dtype`, so it needs 28 bytes. -/
theorem setBits_isSome_iff (comm_hdr : CommonHeader) (bits : List UInt8) :
    (setBits comm_hdr bits).isSome ↔ 28 ≤ bits.length := by
  constructor
  · intro hsome
    obtain ⟨d, hd⟩ := Option.isSome_iff_exists.mp hsome
    obtain ⟨_, _, _, -, -, hdtype, -⟩ := setBits_eq_some_iff.mp hd
    have hle := ((Layout.load?_eq_some_iff _).mp hdtype).1
    rwa [Layout.uint32_width] at hle
  · intro hle
    rw [setBits_of_le comm_hdr hle]
    rfl

/-- Where the whole header is there, the words are its fields. -/
theorem setBits_of_header (comm_hdr : CommonHeader) {bits : List UInt8}
    {h : WaterColumnHeader}
    (hh : WaterColumnHeader.layout.load? bits 0 = some h) :
    setBits comm_hdr bits =
      some
        { comm_hdr, bits
          pixel_data := 168
          beam_directions := 168 + (pixel_data_size h).toNat } :=
  setBits_eq_some_iff.mpr ⟨h.m, h.n, h.dtype,
    WaterColumnHeader.layout_m.load? hh, WaterColumnHeader.layout_n.load? hh,
    WaterColumnHeader.layout_dtype.load? hh, rfl⟩

theorem Complete.le {bits : List UInt8} (h : Complete bits) :
    168 ≤ bits.length := by
  obtain ⟨_, hload, -⟩ := h
  have hle := ((Layout.load?_eq_some_iff _).mp hload).1
  simpa using hle

theorem bits_of_setBits {comm_hdr : CommonHeader} {bits : List UInt8}
    {d : WaterColumnData} (hd : setBits comm_hdr bits = some d) :
    d.bits = bits := by
  obtain ⟨m, n, dtype, -, -, -, rfl⟩ := setBits_eq_some_iff.mp hd
  rfl

theorem setBits_of_complete (comm_hdr : CommonHeader) {bits : List UInt8}
    (h : Complete bits) : setBits comm_hdr bits = some (view comm_hdr bits) :=
  setBits_of_le comm_hdr (Nat.le_trans (by decide) h.le)

/-- What `getRosMsg` makes of a payload that `setBits` has taken. -/
theorem getRosMsg_setBits_eq_some_iff {comm_hdr : CommonHeader}
    {bits : List UInt8} {d : WaterColumnData} {frame_id : List Char}
    {msg : WaterColumnStamped} (hd : setBits comm_hdr bits = some d) :
    d.getRosMsg frame_id = some msg ↔
      ∃ h pixels directions, WaterColumnHeader.layout.load? bits 0 = some h ∧
        Layout.uint8.loadArray? bits 168 (pixel_data_size h).toNat =
          some pixels ∧
        Layout.binary32.loadArray? bits (168 + (pixel_data_size h).toNat)
          h.n.toNat = some directions ∧
        msg =
          { header := { stamp := h.time, frame_id }
            water_column :=
              { common_header := comm_hdr
                water_column_header := h
                pixel_data := pixels
                beam_directions := directions } } := by
  constructor
  · intro hmsg
    simp only [getRosMsg, water_column_header, Option.bind_eq_bind,
      Option.bind_eq_some_iff, Option.pure_def, Option.some.injEq] at hmsg
    obtain ⟨h, hh, pixels, hp, directions, hb, rfl⟩ := hmsg
    rw [bits_of_setBits hd] at hh
    rw [setBits_of_header comm_hdr hh, Option.some.injEq] at hd
    subst hd
    exact ⟨h, pixels, directions, hh, hp, hb, rfl⟩
  · rintro ⟨h, pixels, directions, hh, hp, hb, rfl⟩
    rw [setBits_of_header comm_hdr hh, Option.some.injEq] at hd
    subst hd
    simp only [getRosMsg, water_column_header, hh, hp, hb,
      Option.bind_eq_bind, Option.bind_some, Option.pure_def]

/-- A message is produced exactly from a complete payload. -/
theorem getRosMsg_setBits_isSome_iff {comm_hdr : CommonHeader}
    {bits : List UInt8} {d : WaterColumnData}
    (hd : setBits comm_hdr bits = some d) (frame_id : List Char) :
    (d.getRosMsg frame_id).isSome ↔ Complete bits := by
  constructor
  · intro hsome
    obtain ⟨msg, hmsg⟩ := Option.isSome_iff_exists.mp hsome
    obtain ⟨h, pixels, directions, hh, -, hb, -⟩ :=
      (getRosMsg_setBits_eq_some_iff hd).mp hmsg
    have hle := (Layout.loadArray?_eq_some_iff _).mp hb
    rw [Layout.binary32_width, Nat.mul_comm] at hle
    exact ⟨h, hh, hle.1⟩
  · rintro ⟨h, hh, hle⟩
    have hp : 168 + (pixel_data_size h).toNat * Layout.uint8.width ≤
        bits.length := by
      rw [Layout.uint8_width]
      omega
    have hb : 168 + (pixel_data_size h).toNat +
        h.n.toNat * Layout.binary32.width ≤ bits.length := by
      rwa [Layout.binary32_width, Nat.mul_comm h.n.toNat]
    obtain ⟨pixels, hp⟩ := Option.isSome_iff_exists.mp
      ((Layout.loadArray?_isSome_iff _ bits 168 _).mpr hp)
    obtain ⟨directions, hb⟩ := Option.isSome_iff_exists.mp
      ((Layout.loadArray?_isSome_iff _ bits _ _).mpr hb)
    rw [(getRosMsg_setBits_eq_some_iff hd).mpr
      ⟨h, pixels, directions, hh, hp, hb, rfl⟩]
    rfl

/-- A payload of one beam with two samples of type `float64`, 1.0 and 2.5, in
the direction 0.5. -/
def twoPixels : List UInt8 :=
  [0, 128, 187, 68, 128, 150, 152, 71, 1, 0, 0, 0,
    2, 0, 0, 0, 0, 0, 0, 64, 252, 84, 217, 65,
    23, 0, 0, 0, 5, 0, 0, 0, 0, 0, 128, 63] ++ List.replicate 132 0 ++
  [0, 0, 0, 0, 0, 0, 240, 63, 0, 0, 0, 0, 0, 0, 4, 64, 0, 0, 0, 63]

theorem twoPixels_complete : Complete twoPixels := by
  refine ⟨WaterColumnHeader.layout.read (twoPixels.take 168), ?_, ?_⟩
  · exact (Layout.load?_eq_some_iff _).mpr ⟨by decide +kernel, rfl⟩
  · decide +kernel

end WaterColumnData

end NorbitDriver
