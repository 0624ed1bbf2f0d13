import NorbitDriver.Interfaces.Norbit

/-!
# Bathymetric payloads

`BathymetricData` keeps the payload of a bathymetric frame and reads the header
and the points in place. The class holds pointers into the payload: the header
at its start and the points behind the header. Copying a struct takes its
bytes, reading one of its fields those of the field alone, so every accessor is
an `Option`, which is `none` when it would read behind the end of the payload.
-/

namespace NorbitDriver

open Bytes

/-- `norbit_types::BathymetricData`; `bits` are the bytes of the payload. -/
structure BathymetricData where
  comm_hdr : CommonHeader
  bits : List UInt8
deriving DecidableEq

namespace BathymetricData

/-- `setBits` stores its arguments and points into the payload, which it does
not read. -/
def setBits (comm_hdr : CommonHeader) (bits : List UInt8) : BathymetricData :=
  { comm_hdr, bits }

def bathymetricHeader (d : BathymetricData) : Option BathymetricHeader :=
  BathymetricHeader.layout.load? d.bits 0

/-- The position of the first point. -/
def data_offset : ℕ := BathymetricHeader.layout.sizeof

def data (d : BathymetricData) (i : ℕ) : Option BathymetricPoint :=
  BathymetricPoint.layout.load? d.bits
    (data_offset + i * BathymetricPoint.layout.sizeof)

/-- A field of the struct that `bathymetricHeader()` refers to, by its
offset. -/
def headerField {α : Type*} (d : BathymetricData) (field : Layout α)
    (off : ℕ) : Option α :=
  field.load? d.bits off

/-- A field of the struct that `data(i)` refers to, by its offset. -/
def pointField {α : Type*} (d : BathymetricData) (field : Layout α)
    (off i : ℕ) : Option α :=
  field.load? d.bits (data_offset + i * BathymetricPoint.layout.sizeof + off)

def getRosMsg (d : BathymetricData) (frame_id : List Char) :
    Option BathymetricStamped := do
  let bathymetric_header ← d.bathymetricHeader
  let detections ← BathymetricPoint.layout.loadArray? d.bits data_offset
    bathymetric_header.n.toNat
  pure
    { header := { stamp := bathymetric_header.time, frame_id }
      bathy := { common_header := d.comm_hdr, bathymetric_header, detections } }

/-- The payload holds the header and the points it announces. -/
def Complete (d : BathymetricData) : Prop :=
  ∃ h, d.bathymetricHeader = some h ∧ 112 + 48 * h.n.toNat ≤ d.bits.length

theorem bathymetricHeader_eq_some_iff {d : BathymetricData}
    {h : BathymetricHeader} :
    d.bathymetricHeader = some h ↔
      112 ≤ d.bits.length ∧
        BathymetricHeader.layout.read (d.bits.take 112) = h := by
  unfold bathymetricHeader
  rw [Layout.load?_eq_some_iff]
  simp

theorem getRosMsg_eq_some_iff {d : BathymetricData} {frame_id : List Char}
    {msg : BathymetricStamped} :
    d.getRosMsg frame_id = some msg ↔
      ∃ h detections, d.bathymetricHeader = some h ∧
        BathymetricPoint.layout.loadArray? d.bits 112 h.n.toNat =
          some detections ∧
        msg =
          { header := { stamp := h.time, frame_id }
            bathy :=
              { common_header := d.comm_hdr
                bathymetric_header := h
                detections } } := by
  simp only [getRosMsg, data_offset, BathymetricHeader.layout_sizeof,
    Option.bind_eq_bind, Option.bind_eq_some_iff, Option.pure_def,
    Option.some.injEq]
  constructor
  · rintro ⟨h, hh, l, hl, rfl⟩
    exact ⟨h, l, hh, hl, rfl⟩
  · rintro ⟨h, l, hh, hl, rfl⟩
    exact ⟨h, hh, l, hl, rfl⟩

/-- A message is produced exactly from a complete payload. -/
theorem getRosMsg_isSome_iff (d : BathymetricData) (frame_id : List Char) :
    (d.getRosMsg frame_id).isSome ↔ d.Complete := by
  constructor
  · intro hsome
    obtain ⟨msg, hmsg⟩ := Option.isSome_iff_exists.mp hsome
    obtain ⟨h, l, hh, hl, -⟩ := getRosMsg_eq_some_iff.mp hmsg
    have hle := (Layout.loadArray?_eq_some_iff _).mp hl
    refine ⟨h, hh, ?_⟩
    rw [BathymetricPoint.layout_width, Nat.mul_comm] at hle
    exact hle.1
  · rintro ⟨h, hh, hle⟩
    have hl : 112 + h.n.toNat * BathymetricPoint.layout.width ≤
        d.bits.length := by
      rwa [BathymetricPoint.layout_width, Nat.mul_comm]
    obtain ⟨l, hl⟩ := Option.isSome_iff_exists.mp
      ((Layout.loadArray?_isSome_iff _ d.bits 112 h.n.toNat).mpr hl)
    rw [getRosMsg_eq_some_iff.mpr ⟨h, l, hh, hl, rfl⟩]
    rfl

/-- The fields of a header that can be copied. -/
theorem headerField_eq {α : Type*} {d : BathymetricData}
    {h : BathymetricHeader} (hh : d.bathymetricHeader = some h)
    {field : Layout α} {off : ℕ} {proj : BathymetricHeader → α}
    (hat : BathymetricHeader.layout.At field off proj) :
    d.headerField field off = some (proj h) := by
  have hload := hat.load? hh
  rwa [Nat.zero_add] at hload

/-- The fields of a point that can be copied. -/
theorem pointField_eq {α : Type*} {d : BathymetricData} {i : ℕ}
    {point : BathymetricPoint} (hpoint : d.data i = some point)
    {field : Layout α} {off : ℕ} {proj : BathymetricPoint → α}
    (hat : BathymetricPoint.layout.At field off proj) :
    d.pointField field off i = some (proj point) :=
  hat.load? hpoint

theorem headerField_isSome_iff {α : Type*} (d : BathymetricData)
    (field : Layout α) (off : ℕ) :
    (d.headerField field off).isSome ↔
      off + field.width ≤ d.bits.length :=
  field.load?_isSome_iff d.bits off

theorem pointField_isSome_iff {α : Type*} (d : BathymetricData)
    (field : Layout α) (off i : ℕ) :
    (d.pointField field off i).isSome ↔
      112 + i * 48 + off + field.width ≤ d.bits.length := by
  rw [pointField, Layout.load?_isSome_iff, data_offset,
    BathymetricHeader.layout_sizeof, BathymetricPoint.layout_sizeof]

/-- The message has the header that is read in place. -/
theorem bathymetricHeader_of_getRosMsg {d : BathymetricData}
    {frame_id : List Char} {msg : BathymetricStamped}
    (hmsg : d.getRosMsg frame_id = some msg) :
    d.bathymetricHeader = some msg.bathy.bathymetric_header := by
  obtain ⟨h, l, hh, -, rfl⟩ := getRosMsg_eq_some_iff.mp hmsg
  exact hh

/-- The message has the points that are read in place. -/
theorem data_of_getRosMsg {d : BathymetricData} {frame_id : List Char}
    {msg : BathymetricStamped} (hmsg : d.getRosMsg frame_id = some msg)
    {i : ℕ} (hi : i < msg.bathy.bathymetric_header.n.toNat) :
    d.data i = msg.bathy.detections[i]? := by
  obtain ⟨h, l, hh, hl, rfl⟩ := getRosMsg_eq_some_iff.mp hmsg
  rw [← BathymetricPoint.layout.load?_of_loadArray? hl hi]
  rw [data, data_offset, BathymetricHeader.layout_sizeof,
    BathymetricPoint.layout_sizeof, BathymetricPoint.layout_width]

/-- In a complete payload every announced point can be read. -/
theorem Complete.data_isSome {d : BathymetricData} (hd : d.Complete)
    {h : BathymetricHeader} (hh : d.bathymetricHeader = some h) {i : ℕ}
    (hi : i < h.n.toNat) : (d.data i).isSome := by
  obtain ⟨h', hh', hle⟩ := hd
  rw [hh] at hh'
  obtain rfl := Option.some.inj hh'
  unfold data data_offset
  rw [Layout.load?_isSome_iff]
  simp only [BathymetricHeader.layout_sizeof, BathymetricPoint.layout_sizeof,
    BathymetricPoint.layout_width]
  omega

/-- A payload with one detection: sound velocity 1500, sampling rate 78125,
sample number 1200, angle 0.5, intensity 1e9, both quality flags set. -/
def oneDetection : List UInt8 :=
  [0, 128, 187, 68, 128, 150, 152, 71, 1, 0, 0, 0,
    42, 0, 0, 0, 0, 0, 0, 64, 252, 84, 217, 65,
    0, 0, 0, 0, 0, 0, 224, 63, 0, 0, 160, 65,
    4, 0, 1, 1, 0, 0, 0, 0, 0, 1, 0, 0,
    0, 0, 0, 0, 0, 0, 128, 63, 0, 80, 195, 72] ++ List.replicate 52 0 ++
  [0, 0, 150, 68, 0, 0, 0, 63, 0, 0, 0, 0,
    0, 0, 0, 0, 0, 0, 0, 0, 40, 107, 110, 78,
    0, 0, 0, 0, 0, 0, 3, 9] ++ List.replicate 16 0

theorem oneDetection_complete (comm_hdr : CommonHeader) :
    (setBits comm_hdr oneDetection).Complete := by
  have hheader : 112 ≤ oneDetection.length := by decide +kernel
  have hpoint : 112 + 48 * (BathymetricHeader.layout.read
      (oneDetection.take 112)).n.toNat ≤ oneDetection.length := by
    decide +kernel
  exact ⟨_, bathymetricHeader_eq_some_iff.mpr ⟨hheader, rfl⟩, hpoint⟩

end BathymetricData

end NorbitDriver
