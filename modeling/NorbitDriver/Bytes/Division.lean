import NorbitDriver.Bytes.ShiftRegister

/-!
# Division of a message, one bit at a time

The textbook register of a cyclic code: it takes the bits of a message at its
high end, one after another, and what it holds behind the last one is the
remainder of the message. A register that is shifted towards its low end is the
mirror image of it. Registers that take a whole word at once, and only then are
shifted, come to the same: the bits of the word that have been shifted out have
been divided, and the others still stand in the register.
-/

namespace Bytes

namespace Division

variable {n w : ℕ}

/-- The register takes one bit of the message. -/
def push (p r : BitVec n) (b : Bool) : BitVec n :=
  if r.msb != b then (r <<< 1) ^^^ p else r <<< 1

/-- The remainder of a message behind the remainder `r`. -/
def divide (p r : BitVec n) (bits : List Bool) : BitVec n :=
  bits.foldl (push p) r

@[simp] theorem divide_nil (p r : BitVec n) : divide p r [] = r := rfl

@[simp] theorem divide_cons (p r : BitVec n) (b : Bool) (bits : List Bool) :
    divide p r (b :: bits) = divide p (push p r b) bits := rfl

theorem divide_append (p r : BitVec n) (front back : List Bool) :
    divide p r (front ++ back) = divide p (divide p r front) back :=
  List.foldl_append

/-- The `k` low bits of a word, the lowest first. -/
def lowBits (k : ℕ) (x : BitVec w) : List Bool :=
  (List.range k).map x.getLsbD

theorem lowBits_succ (k : ℕ) (x : BitVec w) :
    lowBits (k + 1) x = lowBits k x ++ [x.getLsbD k] := by
  rw [lowBits, List.range_succ, List.map_append]
  rfl

/-- The mirror image of a register, for a division towards the low end. -/
def divideLow (p r : BitVec n) (bits : List Bool) : BitVec n :=
  (divide p.reverse r.reverse bits).reverse

theorem divideLow_append (p r : BitVec n) (front back : List Bool) :
    divideLow p r (front ++ back) = divideLow p (divideLow p r front) back := by
  rw [divideLow, divideLow, divideLow, divide_append, BitVec.reverse_reverse_eq]

theorem reverse_xor (a b : BitVec n) :
    (a ^^^ b).reverse = a.reverse ^^^ b.reverse := by
  apply BitVec.eq_of_getLsbD_eq
  intro i hi
  simp [BitVec.getLsbD_reverse, BitVec.getMsbD_xor]

theorem reverse_shiftLeft (r : BitVec n) (k : ℕ) :
    (r <<< k).reverse = r.reverse >>> k := by
  apply BitVec.eq_of_getLsbD_eq
  intro i hi
  rw [BitVec.getLsbD_reverse, BitVec.getLsbD_ushiftRight,
    BitVec.getLsbD_reverse, BitVec.getMsbD_shiftLeft, Nat.add_comm]

theorem reverse_ushiftRight (r : BitVec n) (k : ℕ) :
    (r >>> k).reverse = r.reverse <<< k := by
  rw [← BitVec.reverse_reverse_eq (x := r.reverse <<< k), reverse_shiftLeft,
    BitVec.reverse_reverse_eq]

theorem divideLow_nil (p r : BitVec n) : divideLow p r [] = r :=
  BitVec.reverse_reverse_eq

/-- One bit of a division towards the low end is a step of the shift register
that the bit was added to. -/
theorem divideLow_singleton (p r : BitVec n) (b : Bool) :
    divideLow p r [b] =
      ShiftRegister.step p (r ^^^ (BitVec.ofBool b).setWidth n) := by
  cases n with
  | zero => exact Subsingleton.elim _ _
  | succ n =>
      have hbit : (r ^^^ (BitVec.ofBool b).setWidth (n + 1)).getLsbD 0 =
          (r.getLsbD 0 != b) := by
        cases b <;> simp
      have hrest : (r ^^^ (BitVec.ofBool b).setWidth (n + 1)) >>> 1 =
          r >>> 1 := by
        apply BitVec.eq_of_getLsbD_eq
        intro i hi
        simp [Nat.add_comm 1 i]
      have hmsb : r.reverse.msb = r.getLsbD 0 := BitVec.msb_reverse
      rw [ShiftRegister.step, hbit, hrest, divideLow, divide_cons, divide_nil,
        push, hmsb]
      cases r.getLsbD 0 != b with
      | true =>
          rw [if_pos rfl, if_pos rfl, reverse_xor, reverse_shiftLeft,
            BitVec.reverse_reverse_eq, BitVec.reverse_reverse_eq]
      | false =>
          rw [if_neg Bool.false_ne_true, if_neg Bool.false_ne_true,
            reverse_shiftLeft, BitVec.reverse_reverse_eq]

/-- A polynomial with a constant term makes the division keep remainders
apart. -/
theorem divide_injective {p : BitVec n} (hp : p.getLsbD 0 = true)
    (bits : List Bool) : Function.Injective fun r => divide p r bits := by
  have hmirror : p.reverse.msb = true := by rw [BitVec.msb_reverse, hp]
  have hpush : ∀ b, Function.Injective fun r => push p r b := by
    intro b r s h
    have hlow : divideLow p.reverse r.reverse [b] =
        divideLow p.reverse s.reverse [b] := by
      rw [divideLow, divideLow, BitVec.reverse_reverse_eq,
        BitVec.reverse_reverse_eq, BitVec.reverse_reverse_eq]
      exact congrArg BitVec.reverse h
    rw [divideLow_singleton, divideLow_singleton] at hlow
    have hxor := ShiftRegister.step_injective hmirror hlow
    rw [← BitVec.reverse_reverse_eq (x := r), (BitVec.xor_left_inj _).mp hxor,
      BitVec.reverse_reverse_eq]
  induction bits with
  | nil => exact fun _ _ h => h
  | cons b bits ih => exact fun _ _ h => hpush b (ih h)

/-- A word splits into its lowest bit and the rest. -/
theorem xor_low_shiftLeft (x : BitVec n) :
    (BitVec.ofBool (x.getLsbD 0)).setWidth n ^^^ ((x >>> 1) <<< 1) = x := by
  apply BitVec.eq_of_getLsbD_eq
  intro i hi
  cases i with
  | zero => simp [hi]
  | succ i => simp [hi, Nat.add_comm 1 i]

/-- Behind `k` steps the low bits of a word have been divided, and the rest of
it still stands in the register. -/
theorem steps_xor_word (p r x : BitVec n) (k : ℕ) :
    ShiftRegister.steps p k (r ^^^ x) =
      divideLow p r (lowBits k x) ^^^ (x >>> k) := by
  induction k with
  | zero =>
      rw [ShiftRegister.steps_zero, BitVec.ushiftRight_zero]
      exact congrArg (· ^^^ x) (divideLow_nil p r).symm
  | succ k ih =>
      have hrest : ShiftRegister.step p ((x >>> k >>> 1) <<< 1) =
          x >>> (k + 1) := by
        rw [← BitVec.shiftRight_add]
        apply ShiftRegister.steps_shiftLeft p (k := 1)
        intro i hi
        rw [BitVec.getLsbD_ushiftRight]
        exact BitVec.getLsbD_of_ge x _ (by omega)
      have hbit : (x >>> k).getLsbD 0 = x.getLsbD k :=
        BitVec.getLsbD_ushiftRight x k 0
      rw [Nat.add_comm, ShiftRegister.steps_add, ih, Nat.add_comm, lowBits_succ,
        divideLow_append, divideLow_singleton, ← hrest]
      conv_lhs => rw [← xor_low_shiftLeft (x >>> k), hbit, ← BitVec.xor_assoc]
      exact ShiftRegister.step_xor p _ _

/-- A step of a register that sits at the low end of a wider one. -/
theorem step_setWidth (p r : BitVec n) (h : n ≤ w) :
    ShiftRegister.step (p.setWidth w) (r.setWidth w) =
      (ShiftRegister.step p r).setWidth w := by
  have hbit : (r.setWidth w).getLsbD 0 = r.getLsbD 0 := by
    rw [BitVec.getLsbD_setWidth]
    cases w with
    | zero =>
        rw [BitVec.getLsbD_of_ge r 0 h, Bool.and_false]
    | succ w => simp
  have hshift : r.setWidth w >>> 1 = (r >>> 1).setWidth w := by
    apply BitVec.eq_of_getLsbD_eq
    intro i hi
    rw [BitVec.getLsbD_ushiftRight, BitVec.getLsbD_setWidth,
      BitVec.getLsbD_setWidth, BitVec.getLsbD_ushiftRight]
    by_cases hlast : 1 + i < w
    · simp [hi, hlast]
    · simp [hlast, BitVec.getLsbD_of_ge r (1 + i) (by omega)]
  rw [ShiftRegister.step, ShiftRegister.step, hbit, hshift]
  cases r.getLsbD 0 with
  | true => exact BitVec.setWidth_xor.symm
  | false => rfl

theorem divideLow_cons (p r : BitVec n) (b : Bool) (bits : List Bool) :
    divideLow p r (b :: bits) = divideLow p (divideLow p r [b]) bits :=
  divideLow_append p r [b] bits

/-- A division at the low end of a wider register stays there. -/
theorem divideLow_setWidth (p r : BitVec n) (bits : List Bool) (hn : 0 < n)
    (h : n ≤ w) :
    divideLow (p.setWidth w) (r.setWidth w) bits =
      (divideLow p r bits).setWidth w := by
  induction bits generalizing r with
  | nil => rw [divideLow_nil, divideLow_nil]
  | cons b bits ih =>
      have hb : (BitVec.ofBool b).setWidth w =
          ((BitVec.ofBool b).setWidth n).setWidth w :=
        (BitVec.setWidth_setWidth (by omega)).symm
      rw [divideLow_cons, divideLow_cons p, divideLow_singleton,
        divideLow_singleton, hb, ← BitVec.setWidth_xor, step_setWidth p _ h, ih]

/-- The `k` high bits of a word, the highest first. -/
def highBits (k : ℕ) (x : BitVec w) : List Bool :=
  (List.range k).map x.getMsbD

theorem highBits_eq_lowBits (k : ℕ) (x : BitVec w) :
    highBits k x = lowBits k x.reverse := by
  apply List.map_congr_left
  intro i _
  exact BitVec.getLsbD_reverse.symm

theorem push_false (p r : BitVec n) :
    push p r false = (ShiftRegister.step p.reverse r.reverse).reverse := by
  have h := divideLow_singleton p.reverse r.reverse false
  rw [divideLow, BitVec.reverse_reverse_eq, BitVec.reverse_reverse_eq] at h
  rw [← BitVec.reverse_reverse_eq (x := push p r false)]
  refine congrArg BitVec.reverse (h.trans ?_)
  have hzero : (BitVec.ofBool false).setWidth n = 0#n :=
    BitVec.setWidth_zero n 1
  rw [hzero]
  exact congrArg (ShiftRegister.step p.reverse) BitVec.xor_zero

theorem iterate_push_false (p r : BitVec n) (k : ℕ) :
    (push p · false)^[k] r =
      (ShiftRegister.steps p.reverse k r.reverse).reverse := by
  induction k generalizing r with
  | zero => exact BitVec.reverse_reverse_eq.symm
  | succ k ih =>
      rw [Function.iterate_succ_apply, ih, push_false,
        BitVec.reverse_reverse_eq, ShiftRegister.steps_succ]

/-- Behind `k` shifts the high bits of a word have been divided, and the rest
of it still stands in the register. -/
theorem iterate_push_xor_word (p r x : BitVec n) (k : ℕ) :
    (push p · false)^[k] (r ^^^ x) =
      divide p r (highBits k x) ^^^ (x <<< k) := by
  rw [iterate_push_false, reverse_xor, steps_xor_word, reverse_xor,
    ← reverse_shiftLeft, BitVec.reverse_reverse_eq, divideLow,
    BitVec.reverse_reverse_eq, BitVec.reverse_reverse_eq,
    BitVec.reverse_reverse_eq, highBits_eq_lowBits]

/-- A register of `n` bits at the high end of one of `w` bits. -/
def atTop (w : ℕ) (r : BitVec n) : BitVec w :=
  r.setWidth w <<< (w - n)

theorem atTop_self (r : BitVec n) : atTop n r = r := by
  rw [atTop, Nat.sub_self, BitVec.shiftLeft_zero, BitVec.setWidth_eq]

theorem atTop_eq_reverse (r : BitVec n) (h : n ≤ w) :
    atTop w r = (r.reverse.setWidth w).reverse := by
  apply BitVec.eq_of_getLsbD_eq
  intro i hi
  rw [atTop, BitVec.getLsbD_shiftLeft, BitVec.getLsbD_setWidth,
    BitVec.getLsbD_reverse, BitVec.getMsbD_eq_getLsbD,
    BitVec.getLsbD_setWidth, BitVec.getLsbD_reverse,
    BitVec.getMsbD_eq_getLsbD]
  by_cases hlow : i < w - n
  · have houter : ¬ w - 1 - i < n := by omega
    simp [hlow, houter]
  · have hsame : n - 1 - (w - 1 - i) = i - (w - n) := by omega
    have hinner : w - 1 - i < n := by omega
    have hleft : w - 1 - i < w := by omega
    have hright : i - (w - n) < w := by omega
    simp [hi, hlow, hsame, hinner, hleft, hright]

theorem getMsbD_atTop (r : BitVec n) (h : n ≤ w) (i : ℕ) :
    (atTop w r).getMsbD i = r.getMsbD i := by
  rw [atTop_eq_reverse r h, BitVec.getMsbD_reverse, BitVec.getLsbD_setWidth,
    BitVec.getLsbD_reverse]
  by_cases hi : i < w
  · rw [decide_eq_true hi, Bool.true_and]
  · rw [BitVec.getMsbD_of_ge r i (by omega), Bool.and_false]

/-- What stands at the high end comes back from there. -/
theorem setWidth_atTop_ushiftRight (r : BitVec n) (h : n ≤ w) :
    (atTop w r >>> (w - n)).setWidth n = r := by
  apply BitVec.eq_of_getLsbD_eq
  intro i hi
  have hlt : w - n + i < w := by omega
  simp [atTop, hi, hlt]

/-- What stands at the high end is gone when it has been shifted out. -/
theorem atTop_shiftLeft (r : BitVec n) (h : n ≤ w) : atTop w r <<< n = 0#w := by
  rw [atTop, ← BitVec.shiftLeft_add, Nat.sub_add_cancel h]
  exact BitVec.shiftLeft_eq_zero (Nat.le_refl w)

/-- A division at the high end of a wider register stays there. -/
theorem divide_atTop (p r : BitVec n) (bits : List Bool) (hn : 0 < n)
    (h : n ≤ w) :
    divide (atTop w p) (atTop w r) bits = atTop w (divide p r bits) := by
  have hlow := divideLow_setWidth p.reverse r.reverse bits hn h
  rw [divideLow, divideLow, BitVec.reverse_reverse_eq,
    BitVec.reverse_reverse_eq] at hlow
  rw [atTop_eq_reverse p h, atTop_eq_reverse r h, atTop_eq_reverse _ h, ← hlow,
    BitVec.reverse_reverse_eq]

/-- Zeros at the low end of the register are only shifted out. -/
theorem steps_eq_ushiftRight (p : BitVec n) {x : BitVec n} {k : ℕ}
    (h : ∀ i < k, x.getLsbD i = false) :
    ShiftRegister.steps p k x = x >>> k := by
  have hx : (x >>> k) <<< k = x := by
    apply BitVec.eq_of_getLsbD_eq
    intro i hi
    rw [BitVec.getLsbD_shiftLeft, BitVec.getLsbD_ushiftRight]
    by_cases hik : i < k
    · simp [hik, h i hik]
    · have hsame : k + (i - k) = i := by omega
      simp [hi, hik, hsame]
  conv_lhs => rw [← hx]
  apply ShiftRegister.steps_shiftLeft
  intro i hi
  rw [BitVec.getLsbD_ushiftRight]
  exact BitVec.getLsbD_of_ge x _ (by omega)

/-- Zeros at the high end of the register are only shifted out. -/
theorem iterate_push_eq_shiftLeft (p : BitVec n) {x : BitVec n} {k : ℕ}
    (h : ∀ i < k, x.getMsbD i = false) : (push p · false)^[k] x = x <<< k := by
  have hlow : ∀ i < k, x.reverse.getLsbD i = false := by
    intro i hi
    rw [BitVec.getLsbD_reverse]
    exact h i hi
  rw [iterate_push_false, steps_eq_ushiftRight p.reverse hlow,
    reverse_ushiftRight, BitVec.reverse_reverse_eq]

end Division

end Bytes
