import NorbitDriver.Bytes.ShiftRegister
import Mathlib.Data.List.Basic

/-!
# The vendored CRC library

The bit-by-bit calculation of `CRC.h` for a 32-bit register, with its
parameters, and the `CRC_32` instance that the driver checks payloads with. The
register of a reflected calculation is shifted towards the low bit, and the
polynomial is reflected once before the loop.
-/

namespace NorbitDriver

namespace CRC

/-- `CRC::Parameters<crcpp_uint32, 32>`. -/
structure Parameters where
  polynomial : BitVec 32
  initialValue : BitVec 32
  finalXOR : BitVec 32
  reflectInput : Bool
  reflectOutput : Bool

/-- The loop of `Reflect`: `numBits` bits move from the low end of `value` to
the low end of `reversedValue`. -/
def reflectLoop : ℕ → BitVec 32 → BitVec 32 → BitVec 32
  | 0, reversedValue, _ => reversedValue
  | i + 1, reversedValue, value =>
      reflectLoop i ((reversedValue <<< 1) ||| (value &&& 1)) (value >>> 1)

def Reflect (value : BitVec 32) (numBits : ℕ) : BitVec 32 :=
  reflectLoop numBits 0 value

def BIT_MASK : BitVec 32 := (1 <<< 31) ||| ((1 <<< 31) - 1)

def Finalize (remainder finalXOR : BitVec 32) (reflectOutput : Bool) :
    BitVec 32 :=
  ((if reflectOutput then Reflect remainder 32 else remainder) ^^^ finalXOR)
    &&& BIT_MASK

/-- One bit of the reflected calculation. -/
def remainderBit (polynomial remainder : BitVec 32) : BitVec 32 :=
  if remainder &&& 1 = 0 then remainder >>> 1
  else (remainder >>> 1) ^^^ polynomial

/-- One byte of the reflected calculation. -/
def remainderByte (polynomial remainder : BitVec 32) (byte : UInt8) :
    BitVec 32 :=
  (remainderBit polynomial)^[8] (remainder ^^^ byte.toBitVec.setWidth 32)

/-- One bit of the calculation without reflection. -/
def remainderBitHigh (polynomial remainder : BitVec 32) : BitVec 32 :=
  if remainder &&& (1 <<< 31) = 0 then remainder <<< 1
  else (remainder <<< 1) ^^^ polynomial

/-- One byte of the calculation without reflection. -/
def remainderByteHigh (polynomial remainder : BitVec 32) (byte : UInt8) :
    BitVec 32 :=
  (remainderBitHigh polynomial)^[8]
    (remainder ^^^ (byte.toBitVec.setWidth 32 <<< 24))

def CalculateRemainder (data : List UInt8) (parameters : Parameters)
    (remainder : BitVec 32) : BitVec 32 :=
  if parameters.reflectInput then
    data.foldl (remainderByte (Reflect parameters.polynomial 32)) remainder
  else
    data.foldl (remainderByteHigh parameters.polynomial) remainder

def Calculate (data : List UInt8) (parameters : Parameters) : BitVec 32 :=
  Finalize (CalculateRemainder data parameters parameters.initialValue)
    parameters.finalXOR (parameters.reflectInput != parameters.reflectOutput)

def CRC_32 : Parameters where
  polynomial := 0x04C11DB7
  initialValue := 0xFFFFFFFF
  finalXOR := 0xFFFFFFFF
  reflectInput := true
  reflectOutput := true

/-- The reflected polynomial of `CRC_32` is the one the message definition of
the common header names. -/
theorem Reflect_polynomial : Reflect CRC_32.polynomial 32 = 0xEDB88320 := by
  decide

theorem BIT_MASK_eq_allOnes : BIT_MASK = BitVec.allOnes 32 := by
  decide

/-- `CRC_32` as a single fold over the payload. -/
theorem Calculate_CRC_32 (data : List UInt8) :
    Calculate data CRC_32 =
      ~~~ data.foldl (remainderByte 0xEDB88320) 0xFFFFFFFF := by
  have hmask : ∀ x : BitVec 32, x &&& BIT_MASK = x := by
    intro x
    rw [BIT_MASK_eq_allOnes, BitVec.and_allOnes]
  have hflip : ∀ x : BitVec 32, x ^^^ 0xFFFFFFFF = ~~~ x := by
    intro x
    exact BitVec.xor_allOnes
  rw [Calculate, Finalize, hmask, CalculateRemainder, Reflect_polynomial]
  exact hflip _

/-- The register behind a payload is reached over the register behind the
first `k` bytes. -/
theorem remainder_of_take_drop {data : List UInt8}
    {polynomial r s t : BitVec 32} (k : ℕ)
    (hfront : (data.take k).foldl (remainderByte polynomial) r = s)
    (hback : (data.drop k).foldl (remainderByte polynomial) s = t) :
    data.foldl (remainderByte polynomial) r = t := by
  rw [← List.take_append_drop k data, List.foldl_append, hfront, hback]

/-- The reflected bit step is the one of a shift register. -/
theorem remainderBit_eq_step (polynomial : BitVec 32) :
    remainderBit polynomial = Bytes.ShiftRegister.step polynomial := by
  funext r
  have hlow : r &&& 1 = BitVec.setWidth 32 (BitVec.ofBool (r.getLsbD 0)) :=
    BitVec.and_one_eq_setWidth_ofBool_getLsbD
  rw [remainderBit, Bytes.ShiftRegister.step, hlow]
  cases r.getLsbD 0 with
  | true => rfl
  | false => rfl

theorem remainderByte_eq_feed (polynomial : BitVec 32) :
    remainderByte polynomial = Bytes.ShiftRegister.feed polynomial := by
  funext r b
  rw [remainderByte, remainderBit_eq_step]
  rfl

/-- `CRC_32` tells two payloads apart that differ only within four consecutive
bytes. -/
theorem Calculate_ne_of_burst {front bs cs back : List UInt8}
    (hlen : bs.length = cs.length) (hfit : bs.length ≤ 4) (hne : bs ≠ cs) :
    Calculate (front ++ bs ++ back) CRC_32 ≠
      Calculate (front ++ cs ++ back) CRC_32 := by
  have hmsb : (0xEDB88320 : BitVec 32).msb = true := by decide
  rw [Calculate_CRC_32, Calculate_CRC_32, remainderByte_eq_feed]
  intro h
  exact Bytes.ShiftRegister.foldl_feed_ne hmsb 0xFFFFFFFF hlen
    (Nat.mul_le_mul_left 8 hfit) hne (BitVec.not_inj.mp h)

/-- The check value that `CRC.h` lists for `CRC_32`, on the digits 1 to 9. -/
example : Calculate [0x31, 0x32, 0x33, 0x34, 0x35, 0x36, 0x37, 0x38, 0x39]
    CRC_32 = 0xCBF43926 := by
  decide +kernel

end CRC

end NorbitDriver
