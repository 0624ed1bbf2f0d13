import NorbitDriver.Bytes.Division

/-!
# Registers with a byte table

A register that is linear in exclusive or and takes a byte before eight steps
can look the eight steps up instead: the byte that is about to be shifted out
is added to the byte of the message, and the entry of the sum is what the eight
steps leave beside the plain shift of the register.
-/

namespace Bytes

namespace ByteTable

/-- A register of `w` bits that takes bytes. The byte that is about to be
shifted out does nothing but feed the steps: without it eight steps shift. -/
structure Register (w : ℕ) where
  step : BitVec w → BitVec w
  absorb : BitVec 8 → BitVec w
  window : BitVec w → BitVec 8
  shift : BitVec w → BitVec w
  step_xor : ∀ a b, step (a ^^^ b) = step a ^^^ step b
  absorb_xor : ∀ a b, absorb (a ^^^ b) = absorb a ^^^ absorb b
  steps_rest : ∀ r, step^[8] (r ^^^ absorb (window r)) = shift r

namespace Register

variable {w : ℕ} (R : Register w)

/-- One byte, bit by bit. -/
def feed (r : BitVec w) (b : BitVec 8) : BitVec w :=
  R.step^[8] (r ^^^ R.absorb b)

/-- The entry of a byte: what it leaves in the empty register. -/
def entry (b : BitVec 8) : BitVec w :=
  R.feed 0#w b

theorem iterate_step_xor (k : ℕ) (a b : BitVec w) :
    R.step^[k] (a ^^^ b) = R.step^[k] a ^^^ R.step^[k] b := by
  induction k generalizing a b with
  | zero => rfl
  | succ k ih =>
      rw [Function.iterate_succ_apply, R.step_xor, ih,
        ← Function.iterate_succ_apply, ← Function.iterate_succ_apply]

/-- One byte, by its table. -/
theorem feed_eq_entry (r : BitVec w) (b : BitVec 8) :
    R.feed r b = R.shift r ^^^ R.entry (R.window r ^^^ b) := by
  have hsplit : r ^^^ R.absorb b =
      r ^^^ R.absorb (R.window r) ^^^ R.absorb (R.window r ^^^ b) := by
    rw [R.absorb_xor, ← BitVec.xor_assoc, BitVec.xor_assoc r, BitVec.xor_self,
      BitVec.xor_zero]
  rw [feed, hsplit, R.iterate_step_xor, R.steps_rest, entry, feed,
    BitVec.zero_xor]

end Register

open Division

section Low

variable {w : ℕ} (p : BitVec w)

theorem low_rest (r : BitVec w) :
    (ShiftRegister.step p)^[8] (r ^^^ (r.setWidth 8).setWidth w) =
      r >>> 8 := by
  have hbits : ∀ i < 8,
      (r ^^^ (r.setWidth 8).setWidth w).getLsbD i = false := by
    intro i hi
    by_cases hw : i < w
    · simp [hi, hw]
    · simp [hw, BitVec.getLsbD_of_ge r i (by omega)]
  have hgone : (r.setWidth 8).setWidth w >>> 8 = 0#w := by
    apply BitVec.eq_of_getLsbD_eq
    intro i hi
    simp
  refine (steps_eq_ushiftRight p hbits).trans ?_
  rw [BitVec.ushiftRight_xor_distrib, hgone, BitVec.xor_zero]

/-- The register that is shifted towards its low end. -/
def low : Register w where
  step := ShiftRegister.step p
  absorb b := b.setWidth w
  window r := r.setWidth 8
  shift r := r >>> 8
  step_xor := ShiftRegister.step_xor p
  absorb_xor _ _ := BitVec.setWidth_xor
  steps_rest := low_rest p

end Low

section High

variable {n : ℕ} (p : BitVec n)

theorem push_false_xor (a b : BitVec n) :
    push p (a ^^^ b) false = push p a false ^^^ push p b false := by
  rw [push_false, push_false, push_false, reverse_xor, ShiftRegister.step_xor,
    reverse_xor]

theorem atTop_xor (a b : BitVec 8) :
    atTop n (a ^^^ b) = atTop n a ^^^ atTop n b := by
  rw [atTop, atTop, atTop, BitVec.setWidth_xor, BitVec.shiftLeft_xor_distrib]

theorem high_rest (hn : 8 ≤ n) (r : BitVec n) :
    (fun r => push p r false)^[8]
      (r ^^^ atTop n ((r >>> (n - 8)).setWidth 8)) = r <<< 8 := by
  have hbits : ∀ i < 8,
      (r ^^^ atTop n ((r >>> (n - 8)).setWidth 8)).getMsbD i = false := by
    intro i hi
    have hlt : n - 1 - i < n := by omega
    have hge : ¬ n - 1 - i < n - 8 := by omega
    have hwindow : n - 1 - i - (n - 8) < 8 := by omega
    have hsame : n - 8 + (n - 1 - i - (n - 8)) = n - 1 - i := by omega
    simp [atTop, BitVec.getMsbD_eq_getLsbD, hlt, hge, hwindow, hsame]
  refine (iterate_push_eq_shiftLeft p hbits).trans ?_
  rw [BitVec.shiftLeft_xor_distrib, atTop_shiftLeft _ hn, BitVec.xor_zero]

/-- The register that is shifted towards its high end. -/
def high (hn : 8 ≤ n) : Register n where
  step r := push p r false
  absorb := atTop n
  window r := (r >>> (n - 8)).setWidth 8
  shift r := r <<< 8
  step_xor := push_false_xor p
  absorb_xor := atTop_xor
  steps_rest := high_rest p hn

end High

end ByteTable

end Bytes
