import NorbitDriver.Types.CRC
import NorbitDriver.Types.BathymetricData
import NorbitDriver.Types.WaterColumnData

/-!
# Messages on a data socket

`Message` is the driver's view of one frame: `headerValid` decides from the
common header whether the frame is read at all, `msgValid` compares the CRC-32
of the payload with the one in the header, and `setBits` hands a payload that
passes to the reader for its type.

The length the CRC runs over is computed in `size_t` from the size field of the
header. When it exceeds the payload the calculation reads behind its end, and
the result is `none`.
-/

namespace NorbitDriver

open Bytes CommonHeader

/-- `norbit_types::typeId`. -/
inductive TypeId
  | bathymetric
  | watercolum
  | snippet
deriving DecidableEq

def TypeId.value : TypeId → UInt32
  | bathymetric => 1
  | watercolum => 2
  | snippet => 4

/-- `norbit_types::Message`. The two readers are absent until `setBits` fills
one of them. -/
structure Message where
  commonHeader : CommonHeader
  bits : List UInt8
  bathy : Option BathymetricData := none
  water_column : Option WaterColumnData := none
deriving DecidableEq

namespace Message

def headerValid (header : CommonHeader) : Bool :=
  if header.preable = NORBIT_PREAMBLE_KEY then
    if header.type = TYPE_BATHYMETRIC then
      header.version = 4 || header.version = 8
    else if header.type = TYPE_WATERCOLUMN then
      header.version = 4 || header.version = 9
    else if header.type = TYPE_SNIPPET then false
    else if header.type = TYPE_SIDESCAN then false
    else false
  else false

/-- `fromBoostArray`: the header in a buffer of 24 bytes. -/
def fromBoostArray (array : List UInt8) : CommonHeader :=
  CommonHeader.layout.read array

/-- The number of bytes the CRC runs over: `size - sizeof(CommonHeader)` in
`size_t`. -/
def crcSize (header : CommonHeader) : UInt64 :=
  header.size.toUInt64 - 24

/-- `msgValid`, which runs over as many bytes as the header announces. -/
def msgValid (header : CommonHeader) (bits : List UInt8) : Option Bool :=
  if (crcSize header).toNat ≤ bits.length then
    some (CRC.Calculate (bits.take (crcSize header).toNat) CRC.CRC_32 =
      header.crc.toBitVec)
  else none

/-- `setBits` says whether the payload is valid, and the message it leaves. -/
def setBits (header : CommonHeader) (bits : List UInt8) :
    Option (Bool × Message) := do
  let valid ← msgValid header bits
  if valid then
    if header.type = TypeId.bathymetric.value then
      let bathy := BathymetricData.setBits header bits
      pure (true, { commonHeader := header, bits, bathy := some bathy })
    else if header.type = TypeId.watercolum.value then
      let water_column ← WaterColumnData.setBits header bits
      pure (true,
        { commonHeader := header, bits, water_column := some water_column })
    else
      -- "unable to read data: unknown/undefined type"
      pure (true, { commonHeader := header, bits })
  else
    pure (false, { commonHeader := header, bits })

/-- The pairs of type and version that the driver reads. -/
def supported : List (UInt32 × UInt32) := [(1, 4), (1, 8), (2, 4), (2, 9)]

/-- The header check in one line. -/
theorem headerValid_iff (header : CommonHeader) :
    headerValid header = true ↔
      header.preable = NORBIT_PREAMBLE_KEY ∧
        (header.type, header.version) ∈ supported := by
  unfold headerValid supported TYPE_BATHYMETRIC TYPE_WATERCOLUMN
  split_ifs with hpre hbathy hwc hsnippet hsidescan
  · simp [hpre, hbathy]
  · simp [hpre, hwc]
  all_goals simp_all

/-- A valid header has one of the two types that have a reader. -/
theorem type_of_headerValid {header : CommonHeader}
    (h : headerValid header = true) : header.type = 1 ∨ header.type = 2 := by
  have hmem := ((headerValid_iff header).mp h).2
  simp only [supported, List.mem_cons, List.not_mem_nil, Prod.mk.injEq,
    or_false] at hmem
  rcases hmem with ⟨h, -⟩ | ⟨h, -⟩ | ⟨h, -⟩ | ⟨h, -⟩
  · exact Or.inl h
  · exact Or.inl h
  · exact Or.inr h
  · exact Or.inr h

/-- `setBits` accepts a payload whose CRC matches, and for a water-column
payload it must not read behind its end. -/
theorem setBits_eq_some_true_iff {header : CommonHeader}
    (hvalid : headerValid header = true) (bits : List UInt8) :
    (∃ m, setBits header bits = some (true, m)) ↔
      msgValid header bits = some true ∧
        (header.type = 2 → 28 ≤ bits.length) := by
  cases hmsg : msgValid header bits with
  | none => simp [setBits, hmsg]
  | some valid =>
      cases valid with
      | false => simp [setBits, hmsg]
      | true =>
          rcases type_of_headerValid hvalid with htype | htype
          · simp [setBits, hmsg, htype, TypeId.value]
          · rw [← WaterColumnData.setBits_isSome_iff header bits,
              Option.isSome_iff_exists]
            simp [setBits, hmsg, htype, TypeId.value,
              Option.bind_eq_some_iff]

theorem setBits_of_not_msgValid {header : CommonHeader} {bits : List UInt8}
    (h : msgValid header bits = some false) :
    setBits header bits = some (false, { commonHeader := header, bits }) := by
  simp [setBits, h]

/-- `setBits` reports what the CRC check has found. -/
theorem msgValid_of_setBits {header : CommonHeader} {bits : List UInt8}
    {valid : Bool} {m : Message} (h : setBits header bits = some (valid, m)) :
    msgValid header bits = some valid := by
  cases hmsg : msgValid header bits with
  | none => simp [setBits, hmsg] at h
  | some b =>
      cases b with
      | false =>
          rw [setBits_of_not_msgValid hmsg, Option.some.injEq,
            Prod.mk.injEq] at h
          rw [h.1]
      | true =>
          simp only [setBits, hmsg, Option.bind_eq_bind, Option.bind_some,
            if_true, Option.pure_def] at h
          split_ifs at h
          · cases h
            rfl
          · obtain ⟨_, -, hm⟩ := Option.bind_eq_some_iff.mp h
            cases hm
            rfl
          · cases h
            rfl

/-- With a size of at least the header the length of the CRC does not wrap. -/
theorem crcSize_toNat {header : CommonHeader} (h : 24 ≤ header.size.toNat) :
    (crcSize header).toNat = header.size.toNat - 24 := by
  have hle : (24 : UInt64) ≤ header.size.toUInt64 := by
    rw [UInt64.le_iff_toNat_le, UInt32.toNat_toUInt64]
    exact h
  rw [crcSize, UInt64.toNat_sub_of_le _ _ hle, UInt32.toNat_toUInt64]
  rfl

end Message

end NorbitDriver
