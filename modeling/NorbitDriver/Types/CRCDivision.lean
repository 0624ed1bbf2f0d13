import NorbitDriver.Types.CRCTemplate
import NorbitDriver.Bytes.Division

/-!
# What a calculated CRC is

The meaning of a set of parameters, without registers, masks or bytes: the bits
of the message are divided by the polynomial one after another, in the order in
which `reflectInput` puts the bits of each byte, the remainder is reflected when
`reflectOutput` asks for it, and `finalXOR` is added. The calculations of the
library are refinements of this, whatever the width of the type that holds the
register, and also where the polynomial is shorter than a byte.
-/

namespace NorbitDriver

namespace CRC

namespace Template

open Bytes Bytes.Division

variable {w CRCWidth : ℕ}

/-- The first `k` bits of a byte, in the order in which they are divided. -/
def byteBits (reflectInput : Bool) (k : ℕ) (byte : UInt8) : List Bool :=
  if reflectInput then lowBits k byte.toBitVec else highBits k byte.toBitVec

def messageBits (reflectInput : Bool) (data : List UInt8) : List Bool :=
  data.flatMap (byteBits reflectInput 8)

namespace Parameters

variable (parameters : Parameters w CRCWidth)

def divisor : BitVec CRCWidth :=
  parameters.polynomial.setWidth CRCWidth

/-- The remainder that a division starts from. A reflected calculation holds it
mirrored. -/
def start : BitVec CRCWidth :=
  if parameters.reflectInput then
    (parameters.initialValue.setWidth CRCWidth).reverse
  else parameters.initialValue.setWidth CRCWidth

/-- The result over a remainder. -/
def result (remainder : BitVec CRCWidth) : BitVec CRCWidth :=
  (if parameters.reflectOutput then remainder.reverse else remainder)
    ^^^ parameters.finalXOR.setWidth CRCWidth

/-- The CRC of a message. -/
def checksum (bits : List Bool) : BitVec CRCWidth :=
  parameters.result (divide parameters.divisor parameters.start bits)

/-- The register of the library holds a remainder: mirrored, with nothing above
it, when the input is reflected, and otherwise at its low end, below bits that
never come back. -/
def Holds (register : BitVec w) (remainder : BitVec CRCWidth) : Prop :=
  if parameters.reflectInput then register = remainder.reverse.setWidth w
  else register.setWidth CRCWidth = remainder

end Parameters

/-! ### One byte -/

/-- What the tests of the bit loops ask. -/
theorem and_twoPow_ne_zero_iff (x : BitVec w) {k : ℕ} (hk : k < w) :
    x &&& BitVec.twoPow w k ≠ 0 ↔ x.getLsbD k = true := by
  have hone : BitVec.twoPow w k ≠ 0#w := by
    intro h
    have hbit : (BitVec.twoPow w k).getLsbD k = (0#w).getLsbD k := by rw [h]
    rw [BitVec.getLsbD_twoPow, BitVec.getLsbD_zero] at hbit
    simp [hk] at hbit
  rw [BitVec.and_twoPow]
  cases x.getLsbD k with
  | true => exact iff_of_true hone rfl
  | false => exact iff_of_false (fun h => h rfl) Bool.false_ne_true

theorem lowBit_eq_step (polynomial : BitVec w) (hw : 0 < w) :
    lowBit polynomial = ShiftRegister.step polynomial := by
  funext r
  have htest := and_twoPow_ne_zero_iff r hw
  rw [BitVec.twoPow_zero] at htest
  exact if_congr htest rfl rfl

/-- Below the mask a bit is pushed out of the low `n` bits of the register. -/
theorem setWidth_highBit (polynomial r : BitVec w) {n : ℕ} (hn : 0 < n)
    (hw : n ≤ w) :
    (highBit (HIGHEST_BIT_MASK w n) polynomial r).setWidth n =
      push (polynomial.setWidth n) (r.setWidth n) false := by
  have hlast : n - 1 < n := Nat.sub_one_lt_of_lt hn
  have hmsb : (r.setWidth n).msb = r.getLsbD (n - 1) := by
    rw [BitVec.msb_eq_getLsbD_last, BitVec.getLsbD_setWidth, decide_eq_true hlast,
      Bool.true_and]
  have htest : r &&& HIGHEST_BIT_MASK w n ≠ 0 ↔
      ((r.setWidth n).msb != false) = true := by
    rw [hmsb, Bool.bne_false]
    exact and_twoPow_ne_zero_iff r (Nat.lt_of_lt_of_le hlast hw)
  have hshift : (r <<< 1).setWidth n = r.setWidth n <<< 1 :=
    BitVec.setWidth_shiftLeft_of_le hw
  rw [highBit, push, apply_ite (BitVec.setWidth n), BitVec.setWidth_xor, hshift]
  exact if_congr htest rfl rfl

theorem setWidth_iterate_highBit (polynomial r : BitVec w) {n : ℕ}
    (hn : 0 < n) (hw : n ≤ w) (k : ℕ) :
    ((highBit (HIGHEST_BIT_MASK w n) polynomial)^[k] r).setWidth n =
      (push (polynomial.setWidth n) · false)^[k] (r.setWidth n) := by
  induction k generalizing r with
  | zero => rfl
  | succ k ih =>
      rw [Function.iterate_succ_apply, ih, setWidth_highBit polynomial r hn hw,
        Function.iterate_succ_apply]

/-- `k` bits of a reflected calculation. What has not been shifted out of the
byte stays in the register. -/
theorem iterate_lowBit (parameters : Parameters w CRCWidth)
    (remainder : BitVec CRCWidth) (byte : UInt8) {k : ℕ} (hk : k ≤ 8) :
    (lowBit (Reflect parameters.polynomial CRCWidth))^[k]
        (remainder.reverse.setWidth w ^^^ ofByte w byte) =
      (divide parameters.divisor remainder
          (lowBits k byte.toBitVec)).reverse.setWidth w
        ^^^ (ofByte w byte >>> k) := by
  have hw : 0 < w := Nat.lt_of_lt_of_le (by decide) parameters.byte_le
  have hbits : lowBits k (ofByte w byte) = lowBits k byte.toBitVec := by
    apply List.map_congr_left
    intro i hi
    have hik := List.mem_range.mp hi
    have hiw : i < w := by have := parameters.byte_le; omega
    rw [ofByte, BitVec.getLsbD_setWidth, decide_eq_true hiw, Bool.true_and]
  have hsteps := steps_xor_word (parameters.divisor.reverse.setWidth w)
    (remainder.reverse.setWidth w) (ofByte w byte) k
  rw [hbits, divideLow_setWidth _ _ _ parameters.width_pos parameters.width_le,
    divideLow, BitVec.reverse_reverse_eq, BitVec.reverse_reverse_eq] at hsteps
  rw [lowBit_eq_step _ hw, Reflect_eq_reverse]
  exact hsteps

/-- `k` bits of a calculation without reflection, in the low `n` bits of the
register. -/
theorem setWidth_iterate_highBit_xor (polynomial r x : BitVec w) {n : ℕ}
    (hn : 0 < n) (hw : n ≤ w) (k : ℕ) :
    ((highBit (HIGHEST_BIT_MASK w n) polynomial)^[k] (r ^^^ x)).setWidth n =
      divide (polynomial.setWidth n) (r.setWidth n)
          (highBits k (x.setWidth n))
        ^^^ (x.setWidth n <<< k) := by
  rw [setWidth_iterate_highBit polynomial _ hn hw, BitVec.setWidth_xor,
    iterate_push_xor_word]

/-! ### Whole messages -/

theorem ofByte_ushiftRight (byte : UInt8) : ofByte w byte >>> 8 = 0#w := by
  apply BitVec.eq_of_getLsbD_eq
  intro i hi
  simp [ofByte]

theorem setWidth_ofByte (byte : UInt8) (hw : 8 ≤ w) :
    (ofByte w byte).setWidth 8 = byte.toBitVec := by
  rw [ofByte, BitVec.setWidth_setWidth (by omega), BitVec.setWidth_eq]

/-- The byte of a message at the high end of the register. -/
theorem setWidth_ofByte_shiftLeft (byte : UInt8) (hw : CRCWidth ≤ w) :
    (ofByte w byte <<< (CRCWidth - 8)).setWidth CRCWidth =
      atTop CRCWidth byte.toBitVec := by
  rw [BitVec.setWidth_shiftLeft_of_le hw, ofByte,
    BitVec.setWidth_setWidth (by omega), atTop]

theorem highBits_atTop (x : BitVec 8) {k : ℕ} (hk : k ≤ 8) (h : 8 ≤ CRCWidth) :
    highBits k (atTop CRCWidth x) = highBits k x := by
  have hmirror : (atTop CRCWidth x).reverse = x.reverse.setWidth CRCWidth := by
    rw [atTop_eq_reverse x h, BitVec.reverse_reverse_eq]
  rw [highBits_eq_lowBits, highBits_eq_lowBits, hmirror]
  apply List.map_congr_left
  intro i hi
  have hik := List.mem_range.mp hi
  have hiw : i < CRCWidth := by omega
  rw [BitVec.getLsbD_setWidth, decide_eq_true hiw, Bool.true_and]

/-- The register of a width below one byte, at the high end of a byte. -/
theorem setWidth_shiftLeft_eq_atTop (r : BitVec w) (h : CRCWidth ≤ 8)
    (hw : 8 ≤ w) :
    (r <<< (8 - CRCWidth)).setWidth 8 = atTop 8 (r.setWidth CRCWidth) := by
  apply BitVec.eq_of_getLsbD_eq
  intro i hi
  have hiw : i < w := by omega
  rw [BitVec.getLsbD_setWidth, BitVec.getLsbD_shiftLeft, atTop,
    BitVec.getLsbD_shiftLeft, BitVec.getLsbD_setWidth,
    BitVec.getLsbD_setWidth]
  by_cases hout : i < 8 - CRCWidth
  · simp [hout]
  · have hin : i - (8 - CRCWidth) < CRCWidth := by omega
    have hi8 : i - (8 - CRCWidth) < 8 := by omega
    simp [hi, hiw, hin, hi8]

/-- Only its low byte matters of a register that is shifted back. -/
theorem setWidth_ushiftRight (register : BitVec w) (h : CRCWidth ≤ 8) :
    (register >>> (8 - CRCWidth)).setWidth CRCWidth =
      (register.setWidth 8 >>> (8 - CRCWidth)).setWidth CRCWidth := by
  apply BitVec.eq_of_getLsbD_eq
  intro i hi
  have hlt : 8 - CRCWidth + i < 8 := by omega
  simp [hi, hlt]

theorem setWidth_ushiftRight_congr {a b : BitVec w} (h : CRCWidth ≤ 8)
    (hab : a.setWidth 8 = b.setWidth 8) :
    (a >>> (8 - CRCWidth)).setWidth CRCWidth =
      (b >>> (8 - CRCWidth)).setWidth CRCWidth := by
  rw [setWidth_ushiftRight a h, setWidth_ushiftRight b h, hab]

theorem setWidth_ushiftRight_of_atTop (register : BitVec w)
    (remainder : BitVec CRCWidth) (h : CRCWidth ≤ 8)
    (hregister : register.setWidth 8 = atTop 8 remainder) :
    (register >>> (8 - CRCWidth)).setWidth CRCWidth = remainder := by
  rw [setWidth_ushiftRight register h, hregister,
    setWidth_atTop_ushiftRight remainder h]

/-- `k` bits of a calculation without reflection, for a width of a byte and
more. -/
theorem iterate_highBit_wide (parameters : Parameters w CRCWidth)
    (register : BitVec w) (byte : UInt8) (hwidth : 8 ≤ CRCWidth) {k : ℕ}
    (hk : k ≤ 8) :
    ((highBit (HIGHEST_BIT_MASK w CRCWidth) parameters.polynomial)^[k]
        (register ^^^ (ofByte w byte <<< (CRCWidth - 8)))).setWidth CRCWidth =
      divide parameters.divisor (register.setWidth CRCWidth)
          (highBits k byte.toBitVec)
        ^^^ (atTop CRCWidth byte.toBitVec <<< k) := by
  rw [setWidth_iterate_highBit_xor _ _ _ parameters.width_pos
      parameters.width_le,
    setWidth_ofByte_shiftLeft byte parameters.width_le,
    highBits_atTop _ hk hwidth]
  rfl

/-- `k` bits of a calculation without reflection, for a width below a byte. -/
theorem iterate_highBit_narrow (parameters : Parameters w CRCWidth)
    {register : BitVec w} {remainder : BitVec CRCWidth} (byte : UInt8)
    (hwidth : CRCWidth ≤ 8) (k : ℕ)
    (h : register.setWidth 8 = atTop 8 remainder) :
    ((highBit (HIGHEST_BIT_MASK w 8)
        (parameters.polynomial <<< (8 - CRCWidth)))^[k]
        (register ^^^ ofByte w byte)).setWidth 8 =
      atTop 8 (divide parameters.divisor remainder (highBits k byte.toBitVec))
        ^^^ (byte.toBitVec <<< k) := by
  rw [setWidth_iterate_highBit_xor _ _ _ (by decide) parameters.byte_le,
    setWidth_shiftLeft_eq_atTop _ hwidth parameters.byte_le, h,
    setWidth_ofByte byte parameters.byte_le,
    divide_atTop _ _ _ parameters.width_pos hwidth]
  rfl

/-- A loop over bytes divides the message when each byte divides its bits. -/
theorem foldl_divide {divisor : BitVec CRCWidth} {bits : UInt8 → List Bool}
    {loop : BitVec w → UInt8 → BitVec w}
    (holds : BitVec w → BitVec CRCWidth → Prop)
    (hloop : ∀ register remainder byte, holds register remainder →
      holds (loop register byte) (divide divisor remainder (bits byte)))
    {register : BitVec w} {remainder : BitVec CRCWidth} (data : List UInt8)
    (h : holds register remainder) :
    holds (data.foldl loop register)
      (divide divisor remainder (data.flatMap bits)) := by
  induction data generalizing register remainder with
  | nil => exact h
  | cons byte data ih =>
      rw [List.foldl_cons, List.flatMap_cons, divide_append]
      exact ih (hloop register remainder byte h)

/-- The whole bytes of a message, bit by bit. -/
theorem CalculateRemainder_holds {parameters : Parameters w CRCWidth}
    {register : BitVec w} {remainder : BitVec CRCWidth} (data : List UInt8)
    (h : parameters.Holds register remainder) :
    parameters.Holds (CalculateRemainder data parameters register)
      (divide parameters.divisor remainder
        (messageBits parameters.reflectInput data)) := by
  rw [Parameters.Holds] at h ⊢
  rw [CalculateRemainder]
  by_cases hreflect : parameters.reflectInput = true
  · rw [if_pos hreflect] at h ⊢
    rw [if_pos hreflect, hreflect]
    refine foldl_divide (fun r d => r = d.reverse.setWidth w) ?_ data h
    rintro register remainder byte rfl
    rw [iterate_lowBit parameters remainder byte (Nat.le_refl 8),
      ofByte_ushiftRight]
    exact BitVec.xor_zero
  · rw [if_neg hreflect] at h ⊢
    rw [if_neg hreflect, Bool.eq_false_of_not_eq_true hreflect]
    by_cases hwidth : 8 ≤ CRCWidth
    · rw [if_pos hwidth]
      refine foldl_divide (fun r d => r.setWidth CRCWidth = d) ?_ data h
      rintro register remainder byte rfl
      rw [iterate_highBit_wide parameters register byte hwidth (Nat.le_refl 8),
        atTop_shiftLeft _ hwidth]
      exact BitVec.xor_zero
    · rw [if_neg hwidth]
      have hle : CRCWidth ≤ 8 := by omega
      have hfrom : (register <<< (8 - CRCWidth)).setWidth 8 =
          atTop 8 remainder := by
        rw [setWidth_shiftLeft_eq_atTop register hle parameters.byte_le, h]
      apply setWidth_ushiftRight_of_atTop _ _ hle
      refine foldl_divide (fun r d => r.setWidth 8 = atTop 8 d) ?_ data hfrom
      intro register remainder byte hregister
      rw [iterate_highBit_narrow parameters byte hle 8 hregister,
        BitVec.shiftLeft_eq_zero (Nat.le_refl 8)]
      exact BitVec.xor_zero

/-! ### The beginning and the end of a calculation -/

namespace Parameters

/-- The low bits of the register, as a remainder. -/
def remainderOf (parameters : Parameters w CRCWidth) (register : BitVec w) :
    BitVec CRCWidth :=
  if parameters.reflectInput then (register.setWidth CRCWidth).reverse
  else register.setWidth CRCWidth

/-- A value that fits into the width of the CRC. -/
def Fits (_parameters : Parameters w CRCWidth) (value : BitVec w) : Prop :=
  (value.setWidth CRCWidth).setWidth w = value

theorem setWidth_widen (parameters : Parameters w CRCWidth)
    (value : BitVec CRCWidth) :
    (value.setWidth w).setWidth CRCWidth = value := by
  have hle := parameters.width_le
  rw [BitVec.setWidth_setWidth (by omega), BitVec.setWidth_eq]

theorem remainderOf_of_holds {parameters : Parameters w CRCWidth}
    {register : BitVec w} {remainder : BitVec CRCWidth}
    (h : parameters.Holds register remainder) :
    parameters.remainderOf register = remainder := by
  rw [Holds] at h
  rw [remainderOf]
  by_cases hreflect : parameters.reflectInput = true
  · rw [if_pos hreflect] at h ⊢
    rw [h, parameters.setWidth_widen, BitVec.reverse_reverse_eq]
  · rw [if_neg hreflect] at h ⊢
    exact h

/-- A calculation starts where the division does. Without reflection the bits
above the width of the CRC do not matter. -/
theorem holds_initialValue {parameters : Parameters w CRCWidth}
    (h : parameters.reflectInput = true →
      parameters.Fits parameters.initialValue) :
    parameters.Holds parameters.initialValue parameters.start := by
  rw [Holds, start]
  by_cases hreflect : parameters.reflectInput = true
  · rw [if_pos hreflect, if_pos hreflect, BitVec.reverse_reverse_eq]
    exact (h hreflect).symm
  · rw [if_neg hreflect, if_neg hreflect]

/-- The final reflection turns the register of a reflected calculation back. -/
theorem finalize_eq (parameters : Parameters w CRCWidth)
    (register : BitVec w) :
    parameters.finalize register =
      (parameters.result (parameters.remainderOf register)).setWidth w := by
  rw [finalize, Finalize, and_BIT_MASK parameters.width_pos parameters.width_le,
    Reflect_eq_reverse, result, remainderOf, BitVec.setWidth_xor]
  cases parameters.reflectInput with
  | true =>
      cases parameters.reflectOutput with
      | true => simp
      | false => simp [parameters.setWidth_widen]
  | false =>
      cases parameters.reflectOutput with
      | true => simp [parameters.setWidth_widen]
      | false => simp

theorem result_injective (parameters : Parameters w CRCWidth) :
    Function.Injective parameters.result := by
  intro a b h
  rw [result, result] at h
  have horient := (BitVec.xor_left_inj _).mp h
  cases hreflect : parameters.reflectOutput with
  | true =>
      rw [hreflect, if_pos rfl, if_pos rfl] at horient
      rw [← BitVec.reverse_reverse_eq (x := a), horient,
        BitVec.reverse_reverse_eq]
  | false =>
      rw [hreflect] at horient
      exact horient

/-- A continued calculation starts from the remainder behind the result. -/
theorem holds_undoFinalize {parameters : Parameters w CRCWidth}
    (h : parameters.reflectInput = true →
      parameters.Fits parameters.finalXOR)
    (remainder : BitVec CRCWidth) :
    parameters.Holds
      (parameters.undoFinalize ((parameters.result remainder).setWidth w))
      remainder := by
  have hlow : ∀ x : BitVec CRCWidth,
      ((x ^^^ parameters.finalXOR.setWidth CRCWidth).setWidth w
        ^^^ parameters.finalXOR).setWidth CRCWidth = x := by
    intro x
    rw [BitVec.setWidth_xor, parameters.setWidth_widen, BitVec.xor_assoc,
      BitVec.xor_self, BitVec.xor_zero]
  rw [Holds, undoFinalize, UndoFinalize,
    and_BIT_MASK parameters.width_pos parameters.width_le,
    parameters.setWidth_widen, Reflect_eq_reverse, result]
  cases hinput : parameters.reflectInput with
  | true =>
      cases parameters.reflectOutput with
      | true =>
          have hfits : (parameters.finalXOR.setWidth CRCWidth).setWidth w =
              parameters.finalXOR := h hinput
          rw [if_pos rfl, if_pos rfl, if_neg (by decide), BitVec.setWidth_xor,
            hfits, BitVec.xor_assoc, BitVec.xor_self, BitVec.xor_zero]
      | false =>
          rw [if_pos rfl, if_pos (by decide), if_neg Bool.false_ne_true, hlow]
  | false =>
      cases parameters.reflectOutput with
      | true =>
          rw [if_neg Bool.false_ne_true, if_pos (by decide), if_pos rfl, hlow,
            BitVec.reverse_reverse_eq, parameters.setWidth_widen]
      | false =>
          rw [if_neg Bool.false_ne_true, if_neg (by decide),
            if_neg Bool.false_ne_true, hlow]

end Parameters

/-- The CRC over whole bytes is the CRC of their bits. -/
theorem Calculate_eq_checksum {parameters : Parameters w CRCWidth}
    (h : parameters.reflectInput = true →
      parameters.Fits parameters.initialValue) (data : List UInt8) :
    Calculate data parameters =
      (parameters.checksum
        (messageBits parameters.reflectInput data)).setWidth w := by
  have hholds := CalculateRemainder_holds data
    (Parameters.holds_initialValue h)
  rw [Calculate, Parameters.finalize_eq, Parameters.remainderOf_of_holds hholds]
  rfl

/-- A continued calculation over whole bytes divides on. -/
theorem CalculateAppended_eq {parameters : Parameters w CRCWidth}
    (h : parameters.reflectInput = true → parameters.Fits parameters.finalXOR)
    (data : List UInt8) (remainder : BitVec CRCWidth) :
    CalculateAppended data parameters
        ((parameters.result remainder).setWidth w) =
      (parameters.result
        (divide parameters.divisor remainder
          (messageBits parameters.reflectInput data))).setWidth w := by
  have hholds := CalculateRemainder_holds data
    (Parameters.holds_undoFinalize h remainder)
  rw [CalculateAppended, Parameters.finalize_eq,
    Parameters.remainderOf_of_holds hholds]

end Template

end CRC

end NorbitDriver
