import NorbitDriver.Types.CRC

/-!
# The templates of the vendored CRC library

`CRC.h` as it is written: for any unsigned integer type and any width that fits
into it, bit by bit and over a lookup table, for whole bytes and for a number of
bits, from the initial value and as the continuation of an earlier result.
-/

namespace NorbitDriver

namespace CRC

namespace Template

/-- `CRC::Parameters<CRCType, CRCWidth>`, with a `CRCType` of `w` bits. The last
fields are what the templates need to compile: no shift by a negative count, and
the static assertion of `CalculateRemainder`. -/
structure Parameters (w CRCWidth : ℕ) where
  polynomial : BitVec w
  initialValue : BitVec w
  finalXOR : BitVec w
  reflectInput : Bool
  reflectOutput : Bool
  width_pos : 0 < CRCWidth
  width_le : CRCWidth ≤ w
  byte_le : 8 ≤ w

variable {w CRCWidth : ℕ}

/-- The loop of `Reflect`. -/
def reflectLoop : ℕ → BitVec w → BitVec w → BitVec w
  | 0, reversedValue, _ => reversedValue
  | i + 1, reversedValue, value =>
      reflectLoop i ((reversedValue <<< 1) ||| (value &&& 1)) (value >>> 1)

def Reflect (value : BitVec w) (numBits : ℕ) : BitVec w :=
  reflectLoop numBits 0 value

def BIT_MASK (w CRCWidth : ℕ) : BitVec w :=
  ((1 : BitVec w) <<< (CRCWidth - 1)) |||
    (((1 : BitVec w) <<< (CRCWidth - 1)) - 1)

def Finalize (CRCWidth : ℕ) (remainder finalXOR : BitVec w)
    (reflectOutput : Bool) : BitVec w :=
  ((if reflectOutput then Reflect remainder CRCWidth else remainder)
    ^^^ finalXOR) &&& BIT_MASK w CRCWidth

def UndoFinalize (CRCWidth : ℕ) (crc finalXOR : BitVec w)
    (reflectOutput : Bool) : BitVec w :=
  if reflectOutput then
    Reflect ((crc &&& BIT_MASK w CRCWidth) ^^^ finalXOR) CRCWidth
  else (crc &&& BIT_MASK w CRCWidth) ^^^ finalXOR

/-- One bit of the reflected loops. -/
def lowBit (polynomial remainder : BitVec w) : BitVec w :=
  if remainder &&& 1 ≠ 0 then (remainder >>> 1) ^^^ polynomial
  else remainder >>> 1

/-- `CRC_HIGHEST_BIT_MASK` and `CHAR_BIT_HIGHEST_BIT_MASK`. -/
def HIGHEST_BIT_MASK (w width : ℕ) : BitVec w :=
  (1 : BitVec w) <<< (width - 1)

/-- One bit of the other loops, under the mask of the bit they shift out. -/
def highBit (highestBitMask polynomial remainder : BitVec w) : BitVec w :=
  if remainder &&& highestBitMask ≠ 0 then (remainder <<< 1) ^^^ polynomial
  else remainder <<< 1

/-- A byte of the message as a `CRCType`. -/
def ofByte (w : ℕ) (byte : UInt8) : BitVec w :=
  byte.toBitVec.setWidth w

/-- `CalculateRemainder`, bit by bit. A width below one byte is calculated at
the high end of a byte, and the remainder is shifted there and back. -/
def CalculateRemainder (data : List UInt8) (parameters : Parameters w CRCWidth)
    (remainder : BitVec w) : BitVec w :=
  if parameters.reflectInput then
    data.foldl
      (fun remainder byte =>
        (lowBit (Reflect parameters.polynomial CRCWidth))^[8]
          (remainder ^^^ ofByte w byte))
      remainder
  else if 8 ≤ CRCWidth then
    data.foldl
      (fun remainder byte =>
        (highBit (HIGHEST_BIT_MASK w CRCWidth) parameters.polynomial)^[8]
          (remainder ^^^ (ofByte w byte <<< (CRCWidth - 8))))
      remainder
  else
    data.foldl
      (fun remainder byte =>
        (highBit (HIGHEST_BIT_MASK w 8)
            (parameters.polynomial <<< (8 - CRCWidth)))^[8]
          (remainder ^^^ ofByte w byte))
      (remainder <<< (8 - CRCWidth)) >>> (8 - CRCWidth)

/-- `CalculateRemainderBits`: the first `numBits` bits of one byte. -/
def CalculateRemainderBits (byte : UInt8) (numBits : ℕ)
    (parameters : Parameters w CRCWidth) (remainder : BitVec w) : BitVec w :=
  if parameters.reflectInput then
    (lowBit (Reflect parameters.polynomial CRCWidth))^[numBits]
      (remainder ^^^ ofByte w byte)
  else if 8 ≤ CRCWidth then
    (highBit (HIGHEST_BIT_MASK w CRCWidth) parameters.polynomial)^[numBits]
      (remainder ^^^ (ofByte w byte <<< (CRCWidth - 8)))
  else
    (highBit (HIGHEST_BIT_MASK w 8)
        (parameters.polynomial <<< (8 - CRCWidth)))^[numBits]
      ((remainder <<< (8 - CRCWidth)) ^^^ ofByte w byte) >>> (8 - CRCWidth)

/-- `CRC::Table<CRCType, CRCWidth>`. -/
structure Table (w CRCWidth : ℕ) where
  parameters : Parameters w CRCWidth
  table : UInt8 → BitVec w

/-- `InitTable`: one entry for each byte. -/
def Parameters.MakeTable (parameters : Parameters w CRCWidth) :
    Table w CRCWidth where
  parameters := parameters
  table byte :=
    let crc := CalculateRemainder [byte] parameters 0 &&& BIT_MASK w CRCWidth
    if !parameters.reflectInput && decide (CRCWidth < 8) then
      crc <<< (8 - CRCWidth)
    else crc

/-- The cast to `unsigned char` that makes an index of a table. -/
def toIndex (value : BitVec w) : UInt8 :=
  ⟨value.setWidth 8⟩

/-- `CalculateRemainder` over a lookup table. -/
def Table.CalculateRemainder (data : List UInt8)
    (lookupTable : Table w CRCWidth) (remainder : BitVec w) : BitVec w :=
  if lookupTable.parameters.reflectInput then
    data.foldl
      (fun remainder byte =>
        (remainder >>> 8) ^^^
          lookupTable.table (toIndex (remainder ^^^ ofByte w byte)))
      remainder
  else if 8 ≤ CRCWidth then
    data.foldl
      (fun remainder byte =>
        (remainder <<< 8) ^^^
          lookupTable.table
            (toIndex ((remainder >>> (CRCWidth - 8)) ^^^ ofByte w byte)))
      remainder
  else
    data.foldl
      (fun remainder byte =>
        lookupTable.table (toIndex (remainder ^^^ ofByte w byte)))
      (remainder <<< (8 - CRCWidth)) >>> (8 - CRCWidth)

/-- What every `Calculate` and `CalculateBits` ends with. -/
def Parameters.finalize (parameters : Parameters w CRCWidth)
    (remainder : BitVec w) : BitVec w :=
  Finalize CRCWidth remainder parameters.finalXOR
    (parameters.reflectInput != parameters.reflectOutput)

/-- What every continued calculation begins with. -/
def Parameters.undoFinalize (parameters : Parameters w CRCWidth)
    (crc : BitVec w) : BitVec w :=
  UndoFinalize CRCWidth crc parameters.finalXOR
    (parameters.reflectInput != parameters.reflectOutput)

def Calculate (data : List UInt8) (parameters : Parameters w CRCWidth) :
    BitVec w :=
  parameters.finalize
    (CalculateRemainder data parameters parameters.initialValue)

/-- `Calculate` with the `crc` of a previous calculation. -/
def CalculateAppended (data : List UInt8) (parameters : Parameters w CRCWidth)
    (crc : BitVec w) : BitVec w :=
  parameters.finalize
    (CalculateRemainder data parameters (parameters.undoFinalize crc))

def Table.Calculate (data : List UInt8) (lookupTable : Table w CRCWidth) :
    BitVec w :=
  lookupTable.parameters.finalize
    (lookupTable.CalculateRemainder data lookupTable.parameters.initialValue)

def Table.CalculateAppended (data : List UInt8)
    (lookupTable : Table w CRCWidth) (crc : BitVec w) : BitVec w :=
  lookupTable.parameters.finalize
    (lookupTable.CalculateRemainder data
      (lookupTable.parameters.undoFinalize crc))

/-- The whole bytes of a message of `size` bits, from the remainder `bytesFrom`
when there are any. There is no result when they reach past the data. -/
def wholeBytes (calculate : List UInt8 → BitVec w → BitVec w)
    (data : List UInt8) (size : ℕ) (bytesFrom remainder : BitVec w) :
    Option (BitVec w) :=
  if 0 < size / 8 then
    if size / 8 ≤ data.length then
      some (calculate (data.take (size / 8)) bytesFrom)
    else none
  else some remainder

/-- The bits behind the last whole byte. There is no result when their byte is
past the data. -/
def remainingBits (data : List UInt8) (size : ℕ)
    (parameters : Parameters w CRCWidth) (remainder : BitVec w) :
    Option (BitVec w) :=
  if size % 8 ≠ 0 then
    data[size / 8]?.map fun lastByte =>
      CalculateRemainderBits lastByte (size % 8) parameters remainder
  else some remainder

/-- The body of every `CalculateBits`, over the way the whole bytes are
calculated. -/
def calculateBits (calculate : List UInt8 → BitVec w → BitVec w)
    (data : List UInt8) (size : ℕ) (parameters : Parameters w CRCWidth)
    (bytesFrom remainder : BitVec w) : Option (BitVec w) :=
  (wholeBytes calculate data size bytesFrom remainder).bind fun remainder =>
    (remainingBits data size parameters remainder).map parameters.finalize

def CalculateBits (data : List UInt8) (size : ℕ)
    (parameters : Parameters w CRCWidth) : Option (BitVec w) :=
  calculateBits (CalculateRemainder · parameters) data size parameters
    parameters.initialValue parameters.initialValue

/-- `CalculateBits` with the `crc` of a previous calculation. The whole bytes
are calculated from the initial value here too. -/
def CalculateBitsAppended (data : List UInt8) (size : ℕ)
    (parameters : Parameters w CRCWidth) (crc : BitVec w) :
    Option (BitVec w) :=
  calculateBits (CalculateRemainder · parameters) data size parameters
    parameters.initialValue (parameters.undoFinalize crc)

def Table.CalculateBits (data : List UInt8) (size : ℕ)
    (lookupTable : Table w CRCWidth) : Option (BitVec w) :=
  calculateBits (lookupTable.CalculateRemainder ·) data size
    lookupTable.parameters lookupTable.parameters.initialValue
    lookupTable.parameters.initialValue

def Table.CalculateBitsAppended (data : List UInt8) (size : ℕ)
    (lookupTable : Table w CRCWidth) (crc : BitVec w) : Option (BitVec w) :=
  calculateBits (lookupTable.CalculateRemainder ·) data size
    lookupTable.parameters lookupTable.parameters.initialValue
    (lookupTable.parameters.undoFinalize crc)

/-! ### Reflection and the mask -/

theorem getLsbD_reflectLoop (numBits : ℕ) (reversedValue value : BitVec w)
    (i : ℕ) (hi : i < w) :
    (reflectLoop numBits reversedValue value).getLsbD i =
      if i < numBits then value.getLsbD (numBits - 1 - i)
      else reversedValue.getLsbD (i - numBits) := by
  induction numBits generalizing reversedValue value with
  | zero => rfl
  | succ k ih =>
      rw [reflectLoop, ih]
      rcases Nat.lt_trichotomy i k with hlt | rfl | hgt
      · have hshift : 1 + (k - 1 - i) = k + 1 - 1 - i := by omega
        rw [if_pos hlt, if_pos (Nat.lt_succ_of_lt hlt),
          BitVec.getLsbD_ushiftRight, hshift]
      · have hw : 0 < w := Nat.zero_lt_of_lt hi
        simp [hw]
      · have hpred : i - k - 1 = i - (k + 1) := by omega
        have hpos : i - k ≠ 0 := by omega
        have hfits : i - k < w := by omega
        have hbit : (value &&& 1).getLsbD (i - k) = false := by
          simp [hpos]
        rw [if_neg (by omega), if_neg (by omega), BitVec.getLsbD_or, hbit,
          BitVec.getLsbD_shiftLeft, hpred, Bool.or_false]
        simp [hpos, hfits]

/-- Reflecting the low `k` bits mirrors the register of `k` bits. -/
theorem Reflect_eq_reverse (value : BitVec w) (k : ℕ) :
    Reflect value k = (value.setWidth k).reverse.setWidth w := by
  apply BitVec.eq_of_getLsbD_eq
  intro i hi
  rw [Reflect, getLsbD_reflectLoop k 0 value i hi, BitVec.getLsbD_setWidth,
    BitVec.getLsbD_reverse, BitVec.getMsbD_eq_getLsbD, BitVec.getLsbD_setWidth]
  by_cases hik : i < k
  · have hlow : k - 1 - i < k := by omega
    simp [hi, hik, hlow]
  · simp [hik]

theorem one_shiftLeft (w k : ℕ) : (1 : BitVec w) <<< k = BitVec.twoPow w k :=
  rfl

theorem getLsbD_BIT_MASK (h : 0 < CRCWidth) (hw : CRCWidth ≤ w) (i : ℕ) :
    (BIT_MASK w CRCWidth).getLsbD i = decide (i < CRCWidth) := by
  have hk : CRCWidth - 1 < w := by omega
  have hones : (BitVec.twoPow w (CRCWidth - 1) - 1).toNat =
      2 ^ (CRCWidth - 1) - 1 := by
    have hone : (1 : BitVec w).toNat = 1 :=
      Nat.mod_eq_of_lt (Nat.one_lt_two_pow (by omega))
    have hle : (1 : BitVec w) ≤ BitVec.twoPow w (CRCWidth - 1) := by
      rw [BitVec.le_def, hone, BitVec.toNat_twoPow_of_lt hk]
      exact Nat.one_le_two_pow
    rw [BitVec.toNat_sub_of_le hle, hone, BitVec.toNat_twoPow_of_lt hk]
  have hlow : (BitVec.twoPow w (CRCWidth - 1) - 1).getLsbD i =
      decide (i < CRCWidth - 1) := by
    rw [← BitVec.testBit_toNat, hones, Nat.testBit_two_pow_sub_one]
  rw [BIT_MASK, one_shiftLeft, BitVec.getLsbD_or, BitVec.getLsbD_twoPow, hlow]
  simp only [hk, decide_true, Bool.true_and]
  rw [← Bool.decide_or]
  exact decide_eq_decide.mpr (by omega)

/-- The mask keeps the low `CRCWidth` bits. -/
theorem and_BIT_MASK (h : 0 < CRCWidth) (hw : CRCWidth ≤ w) (x : BitVec w) :
    x &&& BIT_MASK w CRCWidth = (x.setWidth CRCWidth).setWidth w := by
  apply BitVec.eq_of_getLsbD_eq
  intro i hi
  rw [BitVec.getLsbD_and, getLsbD_BIT_MASK h hw, BitVec.getLsbD_setWidth,
    BitVec.getLsbD_setWidth]
  simp [hi, Bool.and_comm]

end Template

end CRC

end NorbitDriver
