import Mathlib.Data.Nat.Digits.Defs

/-!
# Little-endian words

`leVal bs` is the number a little-endian host reads from the bytes `bs`, and
`leBytes k n` are the `k` low bytes of `n` in that order. On words of a fixed
length the two are inverse to each other.
-/

namespace Bytes

/-- The number stored little-endian in `bs`. -/
def leVal (bs : List UInt8) : ℕ :=
  Nat.ofDigits 256 (bs.map UInt8.toNat)

/-- The `k` low bytes of `n`, least significant first. -/
def leBytes : ℕ → ℕ → List UInt8
  | 0, _ => []
  | k + 1, n => UInt8.ofNat n :: leBytes k (n / 256)

@[simp] theorem leVal_nil : leVal [] = 0 := rfl

theorem leVal_cons (b : UInt8) (bs : List UInt8) :
    leVal (b :: bs) = b.toNat + 256 * leVal bs :=
  Nat.ofDigits_cons

@[simp] theorem leBytes_length (k n : ℕ) : (leBytes k n).length = k := by
  induction k generalizing n with
  | zero => rfl
  | succ k ih => rw [leBytes, List.length_cons, ih]

theorem leVal_lt (bs : List UInt8) : leVal bs < 256 ^ bs.length := by
  have hdigit : ∀ d ∈ bs.map UInt8.toNat, d < 256 := by
    intro d hd
    obtain ⟨b, -, rfl⟩ := List.mem_map.mp hd
    exact b.toNat_lt
  have h := Nat.ofDigits_lt_base_pow_length (by decide) hdigit
  rwa [List.length_map] at h

theorem leVal_leBytes (k n : ℕ) : leVal (leBytes k n) = n % 256 ^ k := by
  induction k generalizing n with
  | zero => simp [leBytes, Nat.mod_one]
  | succ k ih =>
      have hbyte : (UInt8.ofNat n).toNat = n % 256 := UInt8.toNat_ofNat'
      rw [leBytes, leVal_cons, ih, hbyte, pow_succ', Nat.mod_mul]

theorem leBytes_leVal (bs : List UInt8) :
    leBytes bs.length (leVal bs) = bs := by
  induction bs with
  | nil => rfl
  | cons b bs ih =>
      have hb : b.toNat < 256 := b.toNat_lt
      have hlow : UInt8.ofNat (b.toNat + 256 * leVal bs) = b := by
        apply UInt8.toNat_inj.mp
        rw [UInt8.toNat_ofNat']
        omega
      have hhigh : (b.toNat + 256 * leVal bs) / 256 = leVal bs := by omega
      rw [List.length_cons, leVal_cons, leBytes, hlow, hhigh, ih]

end Bytes
