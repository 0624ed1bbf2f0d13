import Mathlib.Data.Vector.Basic
import NorbitDriver.Bytes.LittleEndian

/-!
# Layouts of memory images

A `Layout` says how a value of a fixed width lies in memory on a little-endian
host: its alignment, how its bytes are read and how they are written. Reading
and writing are inverse to each other, and the structure carries the proofs.

Records are built from their fields in order. `Layout.pair f g` places `g`
directly behind `f`, which is what natural alignment does exactly when the
alignment of `g` divides the width of `f`; the constructor asks for that
divisibility, so a layout with padding cannot be written down as a packed one.

`load?` and `loadArray?` read a field, or consecutive fields, from a buffer at
an offset. They fail when a byte behind the end of the buffer would be read.
-/

namespace Bytes

/-- An IEEE 754 binary32 value, held as its bit pattern. -/
structure Binary32 where
  bits : UInt32
deriving DecidableEq, Repr

/-- An IEEE 754 binary64 value, held as its bit pattern. -/
structure Binary64 where
  bits : UInt64
deriving DecidableEq, Repr

/-- How a value lies in memory: width, alignment, and the two conversions. -/
structure Layout (α : Type*) where
  width : ℕ
  align : ℕ
  read : List UInt8 → α
  write : α → List UInt8
  write_length : ∀ a, (write a).length = width
  write_read : ∀ bs, bs.length = width → write (read bs) = bs
  read_write : ∀ a, read (write a) = a

namespace Layout

variable {α β : Type*}

/-- A word of `k` bytes, aligned to its own width. -/
def word (k : ℕ) (ofNat : ℕ → α) (toNat : α → ℕ)
    (toNat_ofNat : ∀ n, n < 256 ^ k → toNat (ofNat n) = n)
    (ofNat_toNat : ∀ a, ofNat (toNat a) = a)
    (toNat_lt : ∀ a, toNat a < 256 ^ k) : Layout α where
  width := k
  align := k
  read bs := ofNat (leVal bs)
  write a := leBytes k (toNat a)
  write_length a := leBytes_length k (toNat a)
  write_read bs h := by
    have hlt : leVal bs < 256 ^ k := h ▸ leVal_lt bs
    rw [toNat_ofNat _ hlt, ← h, leBytes_leVal]
  read_write a := by
    rw [leVal_leBytes, Nat.mod_eq_of_lt (toNat_lt a), ofNat_toNat]

def uint8 : Layout UInt8 :=
  word 1 UInt8.ofNat UInt8.toNat
    (fun n h => by rw [UInt8.toNat_ofNat']; omega)
    (fun _ => UInt8.ofNat_toNat) (fun a => a.toNat_lt)

def uint16 : Layout UInt16 :=
  word 2 UInt16.ofNat UInt16.toNat
    (fun n h => by rw [UInt16.toNat_ofNat']; omega)
    (fun _ => UInt16.ofNat_toNat) (fun a => a.toNat_lt)

def uint32 : Layout UInt32 :=
  word 4 UInt32.ofNat UInt32.toNat
    (fun n h => by rw [UInt32.toNat_ofNat']; omega)
    (fun _ => UInt32.ofNat_toNat) (fun a => a.toNat_lt)

def uint64 : Layout UInt64 :=
  word 8 UInt64.ofNat UInt64.toNat
    (fun n h => by rw [UInt64.toNat_ofNat']; omega)
    (fun _ => UInt64.ofNat_toNat) (fun a => a.toNat_lt)

def int32 : Layout Int32 :=
  word 4 (fun n => Int32.ofBitVec (BitVec.ofNat 32 n))
    (fun a => a.toBitVec.toNat)
    (fun n h => by simpa using Nat.mod_eq_of_lt h)
    (fun a => by simp) (fun a => a.toBitVec.isLt)

/-- Transporting a field along a bijection of its values. -/
def map (f : Layout α) (wrap : α → β) (unwrap : β → α)
    (unwrap_wrap : ∀ a, unwrap (wrap a) = a)
    (wrap_unwrap : ∀ b, wrap (unwrap b) = b) :
    Layout β where
  width := f.width
  align := f.align
  read bs := wrap (f.read bs)
  write b := f.write (unwrap b)
  write_length b := f.write_length (unwrap b)
  write_read bs h := by rw [unwrap_wrap, f.write_read bs h]
  read_write b := by rw [f.read_write, wrap_unwrap]

/-- Two fields, the second directly behind the first. Natural alignment puts
it there because `g.align` divides `f.width`. -/
def pair (f : Layout α) (g : Layout β)
    (_ : g.align ∣ f.width := by decide) : Layout (α × β) where
  width := f.width + g.width
  align := max f.align g.align
  read bs := (f.read (bs.take f.width), g.read (bs.drop f.width))
  write p := f.write p.1 ++ g.write p.2
  write_length p := by
    rw [List.length_append, f.write_length, g.write_length]
  write_read bs h := by
    have hf : (bs.take f.width).length = f.width := by
      rw [List.length_take]
      omega
    have hg : (bs.drop f.width).length = g.width := by
      rw [List.length_drop]
      omega
    rw [f.write_read _ hf, g.write_read _ hg, List.take_append_drop]
  read_write p := by
    have hf := f.write_length p.1
    rw [List.take_left' hf, List.drop_left' hf, f.read_write, g.read_write]

/-- Binary floating point values are read as their bit patterns. -/
def binary32 : Layout Binary32 :=
  uint32.map Binary32.mk Binary32.bits (fun _ => rfl) (fun _ => rfl)

def binary64 : Layout Binary64 :=
  uint64.map Binary64.mk Binary64.bits (fun _ => rfl) (fun _ => rfl)

@[simp] theorem uint8_width : uint8.width = 1 := rfl

@[simp] theorem uint32_width : uint32.width = 4 := rfl

@[simp] theorem binary32_width : binary32.width = 4 := rfl

/-- `n` consecutive values. -/
def readList (f : Layout α) : ℕ → List UInt8 → List α
  | 0, _ => []
  | n + 1, bs => f.read (bs.take f.width) :: f.readList n (bs.drop f.width)

def writeList (f : Layout α) (l : List α) : List UInt8 :=
  l.flatMap f.write

@[simp] theorem readList_length (f : Layout α) (n : ℕ) (bs : List UInt8) :
    (f.readList n bs).length = n := by
  induction n generalizing bs with
  | zero => rfl
  | succ n ih => rw [readList, List.length_cons, ih]

@[simp] theorem writeList_cons (f : Layout α) (a : α) (l : List α) :
    f.writeList (a :: l) = f.write a ++ f.writeList l :=
  List.flatMap_cons

theorem writeList_length (f : Layout α) (l : List α) :
    (f.writeList l).length = l.length * f.width := by
  induction l with
  | nil => simp [writeList]
  | cons a l ih =>
      rw [writeList_cons, List.length_append, f.write_length, ih,
        List.length_cons, Nat.add_mul, Nat.one_mul, Nat.add_comm]

/-- Writing `n` values read from `bs` gives back the bytes they were read
from. -/
theorem writeList_readList (f : Layout α) (n : ℕ) (bs : List UInt8)
    (h : n * f.width ≤ bs.length) :
    f.writeList (f.readList n bs) = bs.take (n * f.width) := by
  induction n generalizing bs with
  | zero => simp [readList, writeList]
  | succ n ih =>
      rw [Nat.add_mul, Nat.one_mul] at h ⊢
      have hhead : (bs.take f.width).length = f.width := by
        rw [List.length_take]
        omega
      have htail : n * f.width ≤ (bs.drop f.width).length := by
        rw [List.length_drop]
        omega
      rw [readList, writeList_cons, f.write_read _ hhead, ih _ htail,
        Nat.add_comm, List.take_add]

theorem readList_writeList (f : Layout α) (l : List α) :
    f.readList l.length (f.writeList l) = l := by
  induction l with
  | nil => rfl
  | cons a l ih =>
      have ha := f.write_length a
      rw [List.length_cons, writeList_cons, readList, List.take_left' ha,
        List.drop_left' ha, f.read_write, ih]

/-- The size of a record in memory: the width of its fields, padded at the
end to a multiple of the alignment. -/
def sizeof (f : Layout α) : ℕ :=
  (f.width + f.align - 1) / f.align * f.align

/-- A fixed-size array, aligned like its elements, which lie side by side. -/
def array (f : Layout α) (n : ℕ) (_ : f.align ∣ f.width := by decide) :
    Layout (List.Vector α n) where
  width := n * f.width
  align := f.align
  read bs := ⟨f.readList n bs, f.readList_length n bs⟩
  write v := f.writeList v.val
  write_length v := by rw [writeList_length, v.property]
  write_read bs h := by
    rw [f.writeList_readList n bs (Nat.le_of_eq h.symm), ← h, List.take_length]
  read_write v := by
    apply Subtype.ext
    have h := f.readList_writeList v.val
    rwa [v.property] at h

/-- Reads a field at the offset `off` of a buffer. -/
def load? (f : Layout α) (bits : List UInt8) (off : ℕ) : Option α :=
  if off + f.width ≤ bits.length then
    some (f.read ((bits.drop off).take f.width))
  else none

/-- Reads `n` consecutive fields from the offset `off` of a buffer. -/
def loadArray? (f : Layout α) (bits : List UInt8) (off n : ℕ) :
    Option (List α) :=
  if off + n * f.width ≤ bits.length then
    some (f.readList n (bits.drop off))
  else none

theorem load?_isSome_iff (f : Layout α) (bits : List UInt8) (off : ℕ) :
    (f.load? bits off).isSome ↔ off + f.width ≤ bits.length := by
  unfold load?
  split <;> simp_all

theorem load?_eq_some_iff (f : Layout α) {bits : List UInt8} {off : ℕ}
    {a : α} :
    f.load? bits off = some a ↔
      off + f.width ≤ bits.length ∧
        f.read ((bits.drop off).take f.width) = a := by
  unfold load?
  split <;> simp_all

theorem loadArray?_isSome_iff (f : Layout α) (bits : List UInt8)
    (off n : ℕ) :
    (f.loadArray? bits off n).isSome ↔ off + n * f.width ≤ bits.length := by
  unfold loadArray?
  split <;> simp_all

theorem loadArray?_eq_some_iff (f : Layout α) {bits : List UInt8}
    {off n : ℕ} {l : List α} :
    f.loadArray? bits off n = some l ↔
      off + n * f.width ≤ bits.length ∧
        f.readList n (bits.drop off) = l := by
  unfold loadArray?
  split <;> simp_all

theorem length_of_loadArray? (f : Layout α) {bits : List UInt8} {off n : ℕ}
    {l : List α} (h : f.loadArray? bits off n = some l) : l.length = n := by
  rw [← (f.loadArray?_eq_some_iff.mp h).2, readList_length]

theorem getElem?_readList (f : Layout α) {n i : ℕ} (hi : i < n)
    (bs : List UInt8) :
    (f.readList n bs)[i]? =
      some (f.read ((bs.drop (i * f.width)).take f.width)) := by
  induction n generalizing i bs with
  | zero => exact absurd hi (Nat.not_lt_zero i)
  | succ n ih =>
      cases i with
      | zero =>
          rw [Nat.zero_mul, List.drop_zero]
          rfl
      | succ i =>
          rw [readList, List.getElem?_cons_succ, ih (Nat.lt_of_succ_lt_succ hi),
            List.drop_drop, Nat.add_mul, Nat.one_mul, Nat.add_comm]

/-- A field of an array is loaded like a field on its own. -/
theorem load?_of_loadArray? (f : Layout α) {bits : List UInt8} {off n : ℕ}
    {l : List α} (h : f.loadArray? bits off n = some l) {i : ℕ} (hi : i < n) :
    f.load? bits (off + i * f.width) = l[i]? := by
  obtain ⟨hle, rfl⟩ := f.loadArray?_eq_some_iff.mp h
  have hmul : (i + 1) * f.width ≤ n * f.width :=
    Nat.mul_le_mul_right f.width hi
  rw [Nat.add_mul, Nat.one_mul] at hmul
  rw [f.getElem?_readList hi, f.load?_eq_some_iff, List.drop_drop]
  exact ⟨by omega, rfl⟩

/-- Writing a loaded value gives back the bytes it was loaded from. -/
theorem write_of_load? (f : Layout α) {bits : List UInt8} {off : ℕ} {a : α}
    (h : f.load? bits off = some a) :
    f.write a = (bits.drop off).take f.width := by
  obtain ⟨hle, rfl⟩ := f.load?_eq_some_iff.mp h
  apply f.write_read
  rw [List.length_take, List.length_drop]
  omega

theorem writeList_of_loadArray? (f : Layout α) {bits : List UInt8}
    {off n : ℕ} {l : List α} (h : f.loadArray? bits off n = some l) :
    f.writeList l = (bits.drop off).take (n * f.width) := by
  obtain ⟨hle, rfl⟩ := f.loadArray?_eq_some_iff.mp h
  apply f.writeList_readList
  rw [List.length_drop]
  omega

/-- A value is loaded from where it has been written. -/
theorem load?_append (f : Layout α) (front : List UInt8) (a : α)
    (rest : List UInt8) :
    f.load? (front ++ (f.write a ++ rest)) front.length = some a := by
  have ha := f.write_length a
  rw [f.load?_eq_some_iff, List.drop_left, List.take_left' ha, f.read_write,
    List.length_append, List.length_append, ha]
  exact ⟨by omega, rfl⟩

/-- Values that have been written are read back whatever follows them. -/
theorem readList_writeList_append (f : Layout α) (l : List α)
    (rest : List UInt8) : f.readList l.length (f.writeList l ++ rest) = l := by
  induction l with
  | nil => rfl
  | cons a l ih =>
      have ha := f.write_length a
      rw [List.length_cons, writeList_cons, readList, List.append_assoc,
        List.take_left' ha, List.drop_left' ha, f.read_write, ih]

theorem loadArray?_append (f : Layout α) (front : List UInt8) (l : List α)
    (rest : List UInt8) :
    f.loadArray? (front ++ (f.writeList l ++ rest)) front.length l.length =
      some l := by
  rw [f.loadArray?_eq_some_iff, List.drop_left, f.readList_writeList_append,
    List.length_append, List.length_append, f.writeList_length]
  exact ⟨by omega, rfl⟩

/-- The component `proj` of a record lies at the offset `off` of its image. -/
structure At (f : Layout α) (g : Layout β) (off : ℕ) (proj : α → β) :
    Prop where
  le : off + g.width ≤ f.width
  read_eq : ∀ bs, bs.length = f.width →
    proj (f.read bs) = g.read ((bs.drop off).take g.width)

namespace At

variable {γ : Type*} {f : Layout α} {g : Layout β} {h : Layout γ} {off : ℕ}

theorem self : f.At f 0 id where
  le := Nat.le_of_eq (Nat.zero_add f.width)
  read_eq bs hlen := by rw [List.drop_zero, ← hlen, List.take_length, id]

/-- The last component of a record. -/
theorem snd {hdvd : g.align ∣ f.width} :
    (f.pair g hdvd).At g f.width Prod.snd where
  le := Nat.le_refl _
  read_eq bs hlen := by
    have hwidth : (bs.drop f.width).length = g.width := by
      rw [List.length_drop, hlen]
      exact Nat.add_sub_cancel_left f.width g.width
    rw [← hwidth, List.take_length]
    rfl

/-- A component of the record without its last component. -/
theorem fst {proj : α → γ} {hdvd : g.align ∣ f.width}
    (hat : f.At h off proj) :
    (f.pair g hdvd).At h off (fun p => proj p.1) where
  le := Nat.le_trans hat.le (Nat.le_add_right _ _)
  read_eq bs hlen := by
    have hle := hat.le
    have hwidth : (bs.take f.width).length = f.width := by
      rw [List.length_take, hlen]
      exact Nat.min_eq_left (Nat.le_add_right _ _)
    have htake := hat.read_eq (bs.take f.width) hwidth
    rw [List.drop_take, List.take_take, Nat.min_eq_left (by omega)] at htake
    exact htake

theorem map {proj : β → γ} {wrap : α → β} {unwrap : β → α}
    {unwrap_wrap : ∀ a, unwrap (wrap a) = a}
    {wrap_unwrap : ∀ b, wrap (unwrap b) = b}
    (hat : f.At h off (fun a => proj (wrap a))) :
    (f.map wrap unwrap unwrap_wrap wrap_unwrap).At h off proj where
  le := hat.le
  read_eq := hat.read_eq

/-- Loading a record loads its components. -/
theorem load? {proj : α → β} (hat : f.At g off proj) {bits : List UInt8}
    {base : ℕ} {a : α} (hload : f.load? bits base = some a) :
    g.load? bits (base + off) = some (proj a) := by
  have hle := hat.le
  obtain ⟨hin, rfl⟩ := f.load?_eq_some_iff.mp hload
  have hwidth : ((bits.drop base).take f.width).length = f.width := by
    rw [List.length_take, List.length_drop]
    omega
  apply g.load?_eq_some_iff.mpr
  refine ⟨by omega, ?_⟩
  rw [hat.read_eq _ hwidth, List.drop_take, List.drop_drop, List.take_take,
    Nat.min_eq_left (by omega)]

end At

end Layout

end Bytes
