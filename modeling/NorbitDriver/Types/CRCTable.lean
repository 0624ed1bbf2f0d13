import NorbitDriver.Types.CRCDivision
import NorbitDriver.Bytes.ByteTable

/-!
# The lookup table of the CRC library

The calculations over a table agree with the calculations bit by bit. Which
part of the register has to agree differs: all of it when the input is
reflected, the bits of the CRC otherwise, and a whole byte while a CRC shorter
than that is calculated.
-/

namespace NorbitDriver

namespace CRC

namespace Template

open Bytes Bytes.Division

variable {w CRCWidth : ℕ}

/-- Two registers that no later calculation tells apart. -/
def Parameters.Same (parameters : Parameters w CRCWidth)
    (a b : BitVec w) : Prop :=
  if parameters.reflectInput then a = b
  else a.setWidth CRCWidth = b.setWidth CRCWidth

theorem Parameters.Same.refl (parameters : Parameters w CRCWidth)
    (a : BitVec w) : parameters.Same a a := by
  rw [Same]
  cases parameters.reflectInput with
  | true => rfl
  | false => rfl

theorem Parameters.Same.finalize_eq {parameters : Parameters w CRCWidth}
    {a b : BitVec w} (h : parameters.Same a b) :
    parameters.finalize a = parameters.finalize b := by
  rw [Same] at h
  rw [parameters.finalize_eq, parameters.finalize_eq, remainderOf, remainderOf]
  cases hreflect : parameters.reflectInput with
  | true =>
      rw [hreflect, if_pos rfl] at h
      rw [h]
  | false =>
      rw [hreflect, if_neg Bool.false_ne_true] at h
      rw [if_neg Bool.false_ne_true, if_neg Bool.false_ne_true, h]

theorem toBitVec_toIndex (value : BitVec w) :
    (toIndex value).toBitVec = value.setWidth 8 := rfl

/-- The entries of a reflected table are those of the register that is shifted
towards its low end. -/
theorem MakeTable_table_reflected {parameters : Parameters w CRCWidth}
    (h : parameters.reflectInput = true) (byte : UInt8) :
    parameters.MakeTable.table byte =
      (ByteTable.low (Reflect parameters.polynomial CRCWidth)).entry
        byte.toBitVec := by
  have hw : 0 < w := Nat.lt_of_lt_of_le (by decide) parameters.byte_le
  have hzero : (0#(CRCWidth)).reverse.setWidth w = 0#w := by
    rw [BitVec.reverse_eq_zero_iff.mpr rfl, BitVec.setWidth_zero]
  have hfits := iterate_lowBit parameters 0#(CRCWidth) byte (Nat.le_refl 8)
  rw [ofByte_ushiftRight, BitVec.xor_zero, hzero] at hfits
  have hcalculate : CalculateRemainder [byte] parameters 0 =
      (lowBit (Reflect parameters.polynomial CRCWidth))^[8]
        (0#w ^^^ ofByte w byte) := if_pos h
  have htable : parameters.MakeTable.table byte =
      CalculateRemainder [byte] parameters 0 &&& BIT_MASK w CRCWidth := by
    simp [Parameters.MakeTable, h]
  rw [htable, hcalculate, and_BIT_MASK parameters.width_pos parameters.width_le,
    hfits, parameters.setWidth_widen, ← hfits, lowBit_eq_step _ hw]
  rfl

/-- The entries of a table without reflection are those of the register that
is shifted towards its high end. -/
theorem MakeTable_table_wide {parameters : Parameters w CRCWidth}
    (h : parameters.reflectInput = false) (hwidth : 8 ≤ CRCWidth)
    (byte : UInt8) :
    (parameters.MakeTable.table byte).setWidth CRCWidth =
      (ByteTable.high parameters.divisor hwidth).entry byte.toBitVec := by
  have hcalculate : CalculateRemainder [byte] parameters 0 =
      (highBit (HIGHEST_BIT_MASK w CRCWidth) parameters.polynomial)^[8]
        (0#w ^^^ (ofByte w byte <<< (CRCWidth - 8))) := by
    rw [CalculateRemainder, h, if_neg Bool.false_ne_true, if_pos hwidth]
    rfl
  have htable : parameters.MakeTable.table byte =
      CalculateRemainder [byte] parameters 0 &&& BIT_MASK w CRCWidth := by
    simp [Parameters.MakeTable, Nat.not_lt.mpr hwidth]
  rw [htable, hcalculate, and_BIT_MASK parameters.width_pos parameters.width_le,
    parameters.setWidth_widen,
    setWidth_iterate_highBit _ _ parameters.width_pos parameters.width_le,
    BitVec.setWidth_xor, setWidth_ofByte_shiftLeft byte parameters.width_le,
    BitVec.setWidth_zero]
  rfl

/-- A CRC below the width of a byte has its entries at the high end of a byte,
where its register is. -/
theorem MakeTable_table_narrow {parameters : Parameters w CRCWidth}
    (h : parameters.reflectInput = false) (hwidth : CRCWidth < 8)
    (byte : UInt8) :
    (parameters.MakeTable.table byte).setWidth 8 =
      (ByteTable.high (atTop 8 parameters.divisor) (Nat.le_refl 8)).entry
        byte.toBitVec := by
  have hle : CRCWidth ≤ 8 := Nat.le_of_lt hwidth
  have hcalculate : CalculateRemainder [byte] parameters 0 =
      (highBit (HIGHEST_BIT_MASK w 8)
          (parameters.polynomial <<< (8 - CRCWidth)))^[8]
        (0#w ^^^ ofByte w byte) >>> (8 - CRCWidth) := by
    rw [CalculateRemainder, h, if_neg Bool.false_ne_true,
      if_neg (Nat.not_le.mpr hwidth)]
    have hzero : (0 : BitVec w) <<< (8 - CRCWidth) = 0#w :=
      BitVec.zero_shiftLeft _
    rw [hzero]
    rfl
  have htable : parameters.MakeTable.table byte =
      (CalculateRemainder [byte] parameters 0 &&& BIT_MASK w CRCWidth)
        <<< (8 - CRCWidth) := by
    simp [Parameters.MakeTable, h, hwidth]
  have hempty : (0#w).setWidth 8 = atTop 8 0#(CRCWidth) := by
    rw [atTop, BitVec.setWidth_zero, BitVec.setWidth_zero, BitVec.zero_shiftLeft]
  have hregister := iterate_highBit_narrow parameters byte hle 8 hempty
  rw [BitVec.shiftLeft_eq_zero (Nat.le_refl 8), BitVec.xor_zero] at hregister
  rw [htable, hcalculate, and_BIT_MASK parameters.width_pos parameters.width_le,
    setWidth_shiftLeft_eq_atTop _ hle parameters.byte_le,
    parameters.setWidth_widen, setWidth_ushiftRight_of_atTop _ _ hle hregister,
    ← hregister, setWidth_iterate_highBit _ _ (by decide) parameters.byte_le,
    BitVec.setWidth_xor, setWidth_ofByte byte parameters.byte_le,
    setWidth_shiftLeft_eq_atTop _ hle parameters.byte_le, BitVec.setWidth_zero]
  conv_lhs => rw [← atTop_self byte.toBitVec]
  rfl

/-- A byte over the table, for a width of a byte and more. -/
theorem lookup_wide {parameters : Parameters w CRCWidth}
    (h : parameters.reflectInput = false) (hwidth : 8 ≤ CRCWidth)
    (byte : UInt8) (a b : BitVec w)
    (hab : a.setWidth CRCWidth = b.setWidth CRCWidth) :
    ((a <<< 8) ^^^ parameters.MakeTable.table
        (toIndex ((a >>> (CRCWidth - 8)) ^^^ ofByte w byte))).setWidth
          CRCWidth =
      ((highBit (HIGHEST_BIT_MASK w CRCWidth) parameters.polynomial)^[8]
        (b ^^^ (ofByte w byte <<< (CRCWidth - 8)))).setWidth CRCWidth := by
  have hwindow : (a >>> (CRCWidth - 8)).setWidth 8 =
      ((a.setWidth CRCWidth) >>> (CRCWidth - 8)).setWidth 8 := by
    apply BitVec.eq_of_getLsbD_eq
    intro i hi
    have hlt : CRCWidth - 8 + i < CRCWidth := by omega
    simp [hi, hlt]
  have hfeed := ByteTable.Register.feed_eq_entry
    (ByteTable.high parameters.divisor hwidth) (a.setWidth CRCWidth)
    byte.toBitVec
  rw [BitVec.setWidth_xor, MakeTable_table_wide h hwidth, toBitVec_toIndex,
    BitVec.setWidth_xor, setWidth_ofByte byte parameters.byte_le, hwindow,
    BitVec.setWidth_shiftLeft_of_le parameters.width_le]
  refine hfeed.symm.trans ?_
  rw [setWidth_iterate_highBit _ _ parameters.width_pos parameters.width_le,
    BitVec.setWidth_xor, setWidth_ofByte_shiftLeft byte parameters.width_le,
    ← hab]
  rfl

/-- A byte over the table, for a width below a byte. -/
theorem lookup_narrow {parameters : Parameters w CRCWidth}
    (h : parameters.reflectInput = false) (hwidth : CRCWidth < 8)
    (byte : UInt8) (a b : BitVec w) (hab : a.setWidth 8 = b.setWidth 8) :
    (parameters.MakeTable.table (toIndex (a ^^^ ofByte w byte))).setWidth 8 =
      ((highBit (HIGHEST_BIT_MASK w 8)
          (parameters.polynomial <<< (8 - CRCWidth)))^[8]
        (b ^^^ ofByte w byte)).setWidth 8 := by
  have hle : CRCWidth ≤ 8 := Nat.le_of_lt hwidth
  have hfeed := ByteTable.Register.feed_eq_entry
    (ByteTable.high (atTop 8 parameters.divisor) (Nat.le_refl 8))
    (a.setWidth 8) byte.toBitVec
  have hshift : (ByteTable.high (atTop 8 parameters.divisor)
      (Nat.le_refl 8)).shift (a.setWidth 8) = 0#8 :=
    BitVec.shiftLeft_eq_zero (Nat.le_refl 8)
  have hwindow : (ByteTable.high (atTop 8 parameters.divisor)
      (Nat.le_refl 8)).window (a.setWidth 8) = a.setWidth 8 := by
    change ((a.setWidth 8) >>> 0).setWidth 8 = a.setWidth 8
    rw [BitVec.ushiftRight_zero, BitVec.setWidth_eq]
  rw [hshift, hwindow, BitVec.zero_xor] at hfeed
  rw [MakeTable_table_narrow h hwidth, toBitVec_toIndex, BitVec.setWidth_xor,
    setWidth_ofByte byte parameters.byte_le]
  refine hfeed.symm.trans ?_
  rw [setWidth_iterate_highBit _ _ (by decide) parameters.byte_le,
    BitVec.setWidth_xor, setWidth_ofByte byte parameters.byte_le,
    setWidth_shiftLeft_eq_atTop _ hle parameters.byte_le, ← hab]
  conv_rhs => rw [← atTop_self byte.toBitVec]
  rfl

/-- A calculation over a table leaves the register where the calculation bit by
bit does. -/
theorem Table.CalculateRemainder_same (parameters : Parameters w CRCWidth)
    (data : List UInt8) (register : BitVec w) :
    parameters.Same
      (parameters.MakeTable.CalculateRemainder data register)
      (Template.CalculateRemainder data parameters register) := by
  have hparameters : parameters.MakeTable.parameters = parameters := rfl
  rw [Parameters.Same, CalculateRemainder, Template.CalculateRemainder,
    hparameters]
  cases hreflect : parameters.reflectInput with
  | true =>
      rw [if_pos rfl, if_pos rfl, if_pos rfl]
      have hw : 0 < w := Nat.lt_of_lt_of_le (by decide) parameters.byte_le
      refine congrArg (fun f => data.foldl f register) ?_
      funext r byte
      rw [MakeTable_table_reflected hreflect, toBitVec_toIndex,
        BitVec.setWidth_xor, setWidth_ofByte byte parameters.byte_le,
        lowBit_eq_step _ hw]
      exact (ByteTable.Register.feed_eq_entry
        (ByteTable.low (Reflect parameters.polynomial CRCWidth)) r
        byte.toBitVec).symm
  | false =>
      rw [if_neg Bool.false_ne_true, if_neg Bool.false_ne_true,
        if_neg Bool.false_ne_true]
      by_cases hwidth : 8 ≤ CRCWidth
      · rw [if_pos hwidth, if_pos hwidth]
        exact List.foldl_rel
          (r := fun a b : BitVec w =>
            a.setWidth CRCWidth = b.setWidth CRCWidth) rfl
          fun byte _ a b hab => lookup_wide hreflect hwidth byte a b hab
      · rw [if_neg hwidth, if_neg hwidth]
        have hnarrow := Nat.not_le.mp hwidth
        apply setWidth_ushiftRight_congr (Nat.le_of_lt hnarrow)
        exact List.foldl_rel
          (r := fun a b : BitVec w => a.setWidth 8 = b.setWidth 8) rfl
          fun byte _ a b hab => lookup_narrow hreflect hnarrow byte a b hab

/-- The bits of a last byte keep registers together. -/
theorem CalculateRemainderBits_same {parameters : Parameters w CRCWidth}
    (byte : UInt8) (numBits : ℕ) {a b : BitVec w}
    (h : parameters.Same a b) :
    parameters.Same (CalculateRemainderBits byte numBits parameters a)
      (CalculateRemainderBits byte numBits parameters b) := by
  rw [Parameters.Same] at h ⊢
  rw [CalculateRemainderBits, CalculateRemainderBits]
  cases hreflect : parameters.reflectInput with
  | true =>
      rw [hreflect, if_pos rfl] at h
      rw [if_pos rfl, if_pos rfl, if_pos rfl, h]
  | false =>
      rw [hreflect, if_neg Bool.false_ne_true] at h
      rw [if_neg Bool.false_ne_true, if_neg Bool.false_ne_true,
        if_neg Bool.false_ne_true]
      by_cases hwidth : 8 ≤ CRCWidth
      · rw [if_pos hwidth, if_pos hwidth,
          setWidth_iterate_highBit _ _ parameters.width_pos parameters.width_le,
          setWidth_iterate_highBit _ _ parameters.width_pos parameters.width_le,
          BitVec.setWidth_xor, BitVec.setWidth_xor, h]
      · rw [if_neg hwidth, if_neg hwidth]
        have hle : CRCWidth ≤ 8 := by omega
        have hregister : (a <<< (8 - CRCWidth)).setWidth 8 =
            (b <<< (8 - CRCWidth)).setWidth 8 := by
          rw [setWidth_shiftLeft_eq_atTop a hle parameters.byte_le, h,
            setWidth_shiftLeft_eq_atTop b hle parameters.byte_le]
        apply setWidth_ushiftRight_congr hle
        rw [setWidth_iterate_highBit _ _ (by decide) parameters.byte_le,
          setWidth_iterate_highBit _ _ (by decide) parameters.byte_le,
          BitVec.setWidth_xor, BitVec.setWidth_xor, hregister]

/-- Calculations that agree on whole bytes agree on any number of bits. -/
theorem calculateBits_congr {parameters : Parameters w CRCWidth}
    {f g : List UInt8 → BitVec w → BitVec w}
    (h : ∀ data register, parameters.Same (f data register) (g data register))
    (data : List UInt8) (size : ℕ) (bytesFrom remainder : BitVec w) :
    calculateBits f data size parameters bytesFrom remainder =
      calculateBits g data size parameters bytesFrom remainder := by
  have hlast : ∀ a b : BitVec w, parameters.Same a b →
      (remainingBits data size parameters a).map parameters.finalize =
        (remainingBits data size parameters b).map parameters.finalize := by
    intro a b hab
    rw [remainingBits, remainingBits]
    by_cases hbits : size % 8 ≠ 0
    · rw [if_pos hbits, if_pos hbits, Option.map_map, Option.map_map]
      refine congrArg (Option.map · data[size / 8]?) ?_
      funext lastByte
      exact (CalculateRemainderBits_same lastByte _ hab).finalize_eq
    · rw [if_neg hbits, if_neg hbits]
      exact congrArg some hab.finalize_eq
  rw [calculateBits, calculateBits, wholeBytes, wholeBytes]
  by_cases hbytes : 0 < size / 8
  · rw [if_pos hbytes, if_pos hbytes]
    by_cases hread : size / 8 ≤ data.length
    · rw [if_pos hread, if_pos hread]
      exact hlast _ _ (h (data.take (size / 8)) bytesFrom)
    · rw [if_neg hread, if_neg hread]
  · rw [if_neg hbytes, if_neg hbytes]

/-- Whatever the parameters, a calculation over the lookup table gives what the
calculation bit by bit gives, from the start and continued, for whole bytes and
for any number of bits. -/
theorem MakeTable_agrees (parameters : Parameters w CRCWidth)
    (data : List UInt8) (size : ℕ) (crc : BitVec w) :
    parameters.MakeTable.Calculate data = Calculate data parameters ∧
    parameters.MakeTable.CalculateAppended data crc =
      CalculateAppended data parameters crc ∧
    parameters.MakeTable.CalculateBits data size =
      CalculateBits data size parameters ∧
    parameters.MakeTable.CalculateBitsAppended data size crc =
      CalculateBitsAppended data size parameters crc := by
  have hsame := Table.CalculateRemainder_same parameters
  refine ⟨?_, ?_, ?_, ?_⟩
  · exact (hsame data parameters.initialValue).finalize_eq
  · exact (hsame data (parameters.undoFinalize crc)).finalize_eq
  · exact calculateBits_congr hsame data size _ _
  · exact calculateBits_congr hsame data size _ _

end Template

end CRC

end NorbitDriver
