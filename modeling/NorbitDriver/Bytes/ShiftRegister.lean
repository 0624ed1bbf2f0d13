import Mathlib.Data.BitVec
import Mathlib.Logic.Function.Iterate

/-!
# Reflected shift registers

The register of a reflected cyclic code over words of `w` bits: a step shifts
it towards the low bit and adds the polynomial `p` when a one falls out, and a
byte is added to the low end before eight steps. The steps are linear in
exclusive or, and a polynomial with its top bit set makes them injective, since
the top bit of the register then tells whether the polynomial was added. So the
register remembers any difference, and a difference that fits into it is not
cancelled by the bytes that make it.
-/

namespace Bytes

namespace ShiftRegister

variable {w : ℕ}

/-- One bit. -/
def step (p r : BitVec w) : BitVec w :=
  if r.getLsbD 0 then (r >>> 1) ^^^ p else r >>> 1

/-- `n` bits. -/
def steps (p : BitVec w) (n : ℕ) : BitVec w → BitVec w :=
  (step p)^[n]

/-- One byte. -/
def feed (p r : BitVec w) (b : UInt8) : BitVec w :=
  steps p 8 (r ^^^ b.toBitVec.setWidth w)

/-- The word with the bytes `bs` at its low end, the first one lowest. -/
def word (w : ℕ) : List UInt8 → BitVec w
  | [] => 0
  | b :: bs => b.toBitVec.setWidth w ^^^ (word w bs <<< 8)

@[simp] theorem steps_zero (p r : BitVec w) : steps p 0 r = r := rfl

theorem steps_succ (p : BitVec w) (n : ℕ) (r : BitVec w) :
    steps p (n + 1) r = steps p n (step p r) := rfl

theorem steps_add (p : BitVec w) (m n : ℕ) (r : BitVec w) :
    steps p (m + n) r = steps p m (steps p n r) :=
  Function.iterate_add_apply (step p) m n r

/-- A polynomial that is added twice cancels. -/
theorem xor_cancel (a b p : BitVec w) : a ^^^ p ^^^ (b ^^^ p) = a ^^^ b := by
  rw [BitVec.xor_assoc a p (b ^^^ p), BitVec.xor_comm b p,
    ← BitVec.xor_assoc p p b, BitVec.xor_self, BitVec.zero_xor]

theorem step_xor (p a b : BitVec w) :
    step p (a ^^^ b) = step p a ^^^ step p b := by
  rw [step, step, step, BitVec.getLsbD_xor, BitVec.ushiftRight_xor_distrib]
  cases a.getLsbD 0 with
  | true =>
      cases b.getLsbD 0 with
      | true => exact (xor_cancel (a >>> 1) (b >>> 1) p).symm
      | false =>
          change a >>> 1 ^^^ b >>> 1 ^^^ p = a >>> 1 ^^^ p ^^^ b >>> 1
          rw [BitVec.xor_assoc, BitVec.xor_comm (b >>> 1) p,
            BitVec.xor_assoc]
  | false =>
      cases b.getLsbD 0 with
      | true => exact BitVec.xor_assoc (a >>> 1) (b >>> 1) p
      | false => rfl

theorem steps_xor (p : BitVec w) (n : ℕ) (a b : BitVec w) :
    steps p n (a ^^^ b) = steps p n a ^^^ steps p n b := by
  induction n generalizing a b with
  | zero => rfl
  | succ n ih => rw [steps_succ, steps_succ, steps_succ, step_xor, ih]

/-- Only the empty register steps to the empty register: what is added to a
shifted register has its top bit set. -/
theorem eq_zero_of_step_eq_zero {p r : BitVec w} (hp : p.msb = true)
    (h : step p r = 0) : r = 0 := by
  have htop : (r >>> 1).msb = false := by
    rw [BitVec.msb_ushiftRight]
    rfl
  have hlow : r.getLsbD 0 = false := by
    by_contra hone
    rw [Bool.not_eq_false] at hone
    rw [step, if_pos hone] at h
    have heq : r >>> 1 = p := BitVec.xor_eq_zero_iff.mp h
    rw [heq, hp] at htop
    exact absurd htop Bool.noConfusion
  rw [step, hlow, if_neg Bool.false_ne_true] at h
  apply BitVec.eq_of_getLsbD_eq
  intro i _
  cases i with
  | zero => simpa using hlow
  | succ i =>
      have hbit : (r >>> 1).getLsbD i = (0 : BitVec w).getLsbD i := by rw [h]
      rw [BitVec.getLsbD_ushiftRight, Nat.add_comm] at hbit
      simpa using hbit

theorem step_injective {p : BitVec w} (hp : p.msb = true) :
    Function.Injective (step p) := by
  intro a b h
  have hzero : step p (a ^^^ b) = 0 := by
    rw [step_xor, h, BitVec.xor_self]
    rfl
  exact BitVec.xor_eq_zero_iff.mp (eq_zero_of_step_eq_zero hp hzero)

theorem steps_injective {p : BitVec w} (hp : p.msb = true) (n : ℕ) :
    Function.Injective (steps p n) :=
  (step_injective hp).iterate n

/-- Behind two different registers the same bytes leave different registers. -/
theorem foldl_feed_injective {p : BitVec w} (hp : p.msb = true)
    (bs : List UInt8) :
    Function.Injective fun r => bs.foldl (feed p) r := by
  induction bs with
  | nil => exact fun _ _ h => h
  | cons b bs ih =>
      intro r s h
      have hfeed : feed p r b = feed p s b := ih h
      exact (BitVec.xor_left_inj _).mp (steps_injective hp 8 hfeed)

/-- Zeros below a word that fits behind them are only shifted out. -/
theorem steps_shiftLeft (p : BitVec w) {x : BitVec w} {k : ℕ}
    (hx : ∀ i, w ≤ i + k → x.getLsbD i = false) : steps p k (x <<< k) = x := by
  induction k with
  | zero => exact BitVec.shiftLeft_zero x
  | succ k ih =>
      have hlow : (x <<< (k + 1)).getLsbD 0 = false := by simp
      have hstep : step p (x <<< (k + 1)) = x <<< k := by
        rw [step, hlow, if_neg Bool.false_ne_true]
        apply BitVec.eq_of_getLsbD_eq
        intro i hi
        rw [BitVec.getLsbD_ushiftRight, BitVec.getLsbD_shiftLeft,
          BitVec.getLsbD_shiftLeft]
        have hbits : 1 + i - (k + 1) = i - k := by omega
        rw [hbits]
        by_cases hk : i < k
        · have hk' : 1 + i < k + 1 := by omega
          simp [hk, hk']
        · have hk' : ¬ 1 + i < k + 1 := by omega
          by_cases hlast : 1 + i < w
          · simp [hi, hk, hk', hlast]
          · have hfalse := hx (i - k) (by omega)
            simp [hlast, hfalse]
      rw [steps_succ, hstep]
      exact ih fun i hi => hx i (Nat.le_succ_of_le hi)

/-- A word has nothing above its bytes. -/
theorem getLsbD_word_of_le {bs : List UInt8} {i : ℕ} (h : 8 * bs.length ≤ i) :
    (word w bs).getLsbD i = false := by
  induction bs generalizing i with
  | nil => exact BitVec.getLsbD_zero
  | cons b bs ih =>
      rw [List.length_cons] at h
      have hbyte : b.toBitVec.getLsbD i = false :=
        BitVec.getLsbD_of_ge b.toBitVec i (by omega)
      have hrest := ih (i := i - 8) (by omega)
      simp [word, hbyte, hrest]

/-- The rest of a word comes out when its first byte has been shifted out. -/
theorem steps_word_shiftLeft (p : BitVec w) {bs : List UInt8}
    (h : 8 * (bs.length + 1) ≤ w) : steps p 8 (word w bs <<< 8) = word w bs :=
  steps_shiftLeft p fun i hi => getLsbD_word_of_le (by omega)

/-- Bytes that fit into the register act on it as one word. -/
theorem foldl_feed (p r : BitVec w) {bs : List UInt8}
    (h : 8 * bs.length ≤ w) :
    bs.foldl (feed p) r = steps p (8 * bs.length) (r ^^^ word w bs) := by
  induction bs generalizing r with
  | nil => exact BitVec.xor_zero.symm
  | cons b bs ih =>
      rw [List.length_cons] at h
      have hfeed : feed p r b ^^^ word w bs =
          steps p 8 (r ^^^ word w (b :: bs)) := by
        rw [word, ← BitVec.xor_assoc, steps_xor, steps_word_shiftLeft p h]
        rfl
      rw [List.foldl_cons, ih (feed p r b) (by omega), hfeed, ← steps_add,
        List.length_cons, Nat.mul_succ]

/-- Bytes that fit into the register are determined by their word. -/
theorem word_injective {bs cs : List UInt8} (hlen : bs.length = cs.length)
    (hfit : 8 * bs.length ≤ w) (h : word w bs = word w cs) : bs = cs := by
  induction bs generalizing cs with
  | nil => exact (List.length_eq_zero_iff.mp hlen.symm).symm
  | cons b bs ih =>
      cases cs with
      | nil => exact absurd hlen (Nat.succ_ne_zero _)
      | cons c cs =>
          rw [List.length_cons, List.length_cons] at hlen
          rw [List.length_cons] at hfit
          have hbyte : b = c := by
            apply UInt8.toBitVec_inj.mp
            apply BitVec.eq_of_getLsbD_eq
            intro i hi
            have hbit : (word w (b :: bs)).getLsbD i =
                (word w (c :: cs)).getLsbD i := by rw [h]
            have hw : i < w := by omega
            simpa [word, hi, hw] using hbit
          have hrest : word w bs <<< 8 = word w cs <<< 8 := by
            rw [word, word, hbyte] at h
            exact (BitVec.xor_right_inj _).mp h
          have hlen' : bs.length = cs.length := Nat.succ.inj hlen
          have hword : word w bs = word w cs := by
            rw [← steps_word_shiftLeft 0 hfit, hrest,
              steps_word_shiftLeft 0 (hlen' ▸ hfit)]
          rw [hbyte, ih hlen' (by omega) hword]

/-- Two runs of bytes that differ only in a stretch that fits into the register
leave different registers. -/
theorem foldl_feed_ne {p : BitVec w} (hp : p.msb = true) (r : BitVec w)
    {front bs cs back : List UInt8} (hlen : bs.length = cs.length)
    (hfit : 8 * bs.length ≤ w) (hne : bs ≠ cs) :
    (front ++ bs ++ back).foldl (feed p) r ≠
      (front ++ cs ++ back).foldl (feed p) r := by
  intro h
  rw [List.foldl_append, List.foldl_append, List.foldl_append,
    List.foldl_append] at h
  have hregister := foldl_feed_injective hp back h
  have hcs : 8 * cs.length ≤ w := hlen ▸ hfit
  rw [foldl_feed p (front.foldl (feed p) r) hfit,
    foldl_feed p (front.foldl (feed p) r) hcs, hlen] at hregister
  have hxor := steps_injective hp _ hregister
  exact hne (word_injective hlen hfit ((BitVec.xor_right_inj _).mp hxor))

end ShiftRegister

end Bytes
