import NorbitDriver.Types.CRCTable

/-!
# Messages in parts and in bits

A message that arrives in parts has the CRC of the whole message. A message that
ends within a byte has the CRC of its bits when the bits of the last byte behind
it are zero, since the whole byte is added to the register. A continued
calculation over bits starts its whole bytes from the initial value, so it
continues only when there are none.
-/

namespace NorbitDriver

namespace CRC

namespace Template

open Bytes Bytes.Division

variable {w CRCWidth : ℕ}

/-- What a reflected calculation needs of its parameters: nothing above the
width of the CRC. Without reflection the mask takes care of that. -/
structure Parameters.InRange (parameters : Parameters w CRCWidth) : Prop where
  initialValue : parameters.reflectInput = true →
    parameters.Fits parameters.initialValue
  finalXOR : parameters.reflectInput = true →
    parameters.Fits parameters.finalXOR

theorem messageBits_append (reflectInput : Bool) (front back : List UInt8) :
    messageBits reflectInput (front ++ back) =
      messageBits reflectInput front ++ messageBits reflectInput back :=
  List.flatMap_append

/-! ### The calculation of the driver -/

/-- The 32-bit parameters that payloads are checked with. -/
def ofParameters (parameters : CRC.Parameters) : Parameters 32 32 where
  polynomial := parameters.polynomial
  initialValue := parameters.initialValue
  finalXOR := parameters.finalXOR
  reflectInput := parameters.reflectInput
  reflectOutput := parameters.reflectOutput
  width_pos := by decide
  width_le := Nat.le_refl 32
  byte_le := by decide

theorem ofParameters_inRange (parameters : CRC.Parameters) :
    (ofParameters parameters).InRange where
  initialValue _ := by
    rw [Parameters.Fits, BitVec.setWidth_eq, BitVec.setWidth_eq]
  finalXOR _ := by
    rw [Parameters.Fits, BitVec.setWidth_eq, BitVec.setWidth_eq]

theorem Reflect_32 (value : BitVec 32) (numBits : ℕ) :
    Reflect value numBits = CRC.Reflect value numBits := by
  have hloop : ∀ reversedValue value : BitVec 32,
      reflectLoop numBits reversedValue value =
        CRC.reflectLoop numBits reversedValue value := by
    induction numBits with
    | zero => exact fun _ _ => rfl
    | succ numBits ih => exact fun _ _ => ih _ _
  exact hloop 0 value

theorem finalize_ofParameters (parameters : CRC.Parameters)
    (remainder : BitVec 32) :
    (ofParameters parameters).finalize remainder =
      CRC.Finalize remainder parameters.finalXOR
        (parameters.reflectInput != parameters.reflectOutput) := by
  have hmask : BIT_MASK 32 32 = CRC.BIT_MASK := by decide
  rw [Parameters.finalize, Finalize, CRC.Finalize, Reflect_32, hmask]
  rfl

/-- The payload check of the driver is an instance of the templates. -/
theorem Calculate_ofParameters (data : List UInt8)
    (parameters : CRC.Parameters) :
    Calculate data (ofParameters parameters) =
      CRC.Calculate data parameters := by
  have hlow : ∀ polynomial : BitVec 32,
      lowBit polynomial = remainderBit polynomial := by
    intro polynomial
    funext remainder
    exact ite_not _ _ _
  have hhigh : ∀ polynomial : BitVec 32,
      highBit (HIGHEST_BIT_MASK 32 32) polynomial =
        remainderBitHigh polynomial := by
    intro polynomial
    funext remainder
    exact ite_not _ _ _
  rw [Calculate, CRC.Calculate, finalize_ofParameters]
  refine congrArg (CRC.Finalize · parameters.finalXOR
    (parameters.reflectInput != parameters.reflectOutput)) ?_
  have hinput : (ofParameters parameters).reflectInput =
      parameters.reflectInput := rfl
  rw [CalculateRemainder, CRC.CalculateRemainder, hlow, hhigh, Reflect_32,
    hinput]
  cases parameters.reflectInput with
  | true => rfl
  | false => rfl

/-- What the driver compares the header of a message with: the bits of the
payload, the lowest of each byte first, divided by the polynomial. -/
theorem CRC_32_eq_checksum (data : List UInt8) :
    CRC.Calculate data CRC_32 =
      (ofParameters CRC_32).checksum (messageBits true data) := by
  have hinput : (ofParameters CRC_32).reflectInput = true := rfl
  rw [← Calculate_ofParameters,
    Calculate_eq_checksum (ofParameters_inRange CRC_32).initialValue, hinput,
    BitVec.setWidth_eq]

/-! ### Messages in parts -/

/-- The CRC of a message is the remainder of its bits, and a calculation that
continues from the CRC of a message gives the CRC of the longer message. -/
theorem Calculate_divides {parameters : Parameters w CRCWidth}
    (h : parameters.InRange) (data : List UInt8) :
    Calculate data parameters =
        (parameters.checksum
          (messageBits parameters.reflectInput data)).setWidth w ∧
      ∀ before : List Bool,
        CalculateAppended data parameters
            ((parameters.checksum before).setWidth w) =
          (parameters.checksum
            (before ++
              messageBits parameters.reflectInput data)).setWidth w := by
  refine ⟨Calculate_eq_checksum h.initialValue data, ?_⟩
  intro before
  rw [Parameters.checksum, CalculateAppended_eq h.finalXOR,
    Parameters.checksum, divide_append]

theorem Calculate_divides_digit :
    Calculate [0x31] (ofParameters CRC_32) =
        ((ofParameters CRC_32).checksum
          (messageBits true [0x31])).setWidth 32 ∧
      ∀ before : List Bool,
        CalculateAppended [0x31] (ofParameters CRC_32)
            (((ofParameters CRC_32).checksum before).setWidth 32) =
          ((ofParameters CRC_32).checksum
            (before ++ messageBits true [0x31])).setWidth 32 :=
  Calculate_divides (ofParameters_inRange CRC_32) [0x31]

/-- Parts that continue a calculation divide on, one after another. -/
theorem foldl_CalculateAppended {parameters : Parameters w CRCWidth}
    (h : parameters.InRange) (parts : List (List UInt8))
    (remainder : BitVec CRCWidth) :
    parts.foldl (fun crc part => CalculateAppended part parameters crc)
        ((parameters.result remainder).setWidth w) =
      (parameters.result
        (divide parameters.divisor remainder
          (messageBits parameters.reflectInput parts.flatten))).setWidth w := by
  induction parts generalizing remainder with
  | nil => rfl
  | cons part parts ih =>
      rw [List.foldl_cons, CalculateAppended_eq h.finalXOR, ih,
        List.flatten_cons, messageBits_append, divide_append]

/-- The CRC of a message does not depend on the parts in which it arrives. -/
theorem Calculate_parts {parameters : Parameters w CRCWidth}
    (h : parameters.InRange) (first : List UInt8) (parts : List (List UInt8)) :
    parts.foldl (fun crc part => CalculateAppended part parameters crc)
        (Calculate first parameters) =
      Calculate (first ++ parts.flatten) parameters := by
  rw [Calculate_eq_checksum h.initialValue,
    Calculate_eq_checksum h.initialValue, messageBits_append,
    Parameters.checksum, foldl_CalculateAppended h, Parameters.checksum,
    divide_append]

theorem Calculate_parts_digits :
    [[0x34, 0x35, 0x36], [], [0x37, 0x38, 0x39]].foldl
        (fun crc part => CalculateAppended part (ofParameters CRC_32) crc)
        (Calculate [0x31, 0x32, 0x33] (ofParameters CRC_32)) =
      Calculate
        ([0x31, 0x32, 0x33] ++
          [[0x34, 0x35, 0x36], [], [0x37, 0x38, 0x39]].flatten)
        (ofParameters CRC_32) :=
  Calculate_parts (ofParameters_inRange CRC_32) [0x31, 0x32, 0x33]
    [[0x34, 0x35, 0x36], [], [0x37, 0x38, 0x39]]

/-! ### The last byte of a message in bits -/

/-- What stays in the register of a byte of which `k` bits have been divided:
its other bits, at the high end of the remainder. -/
def unused (parameters : Parameters w CRCWidth) (k : ℕ) (byte : UInt8) :
    BitVec CRCWidth :=
  if parameters.reflectInput then
    ((ofByte w byte >>> k).setWidth CRCWidth).reverse
  else if 8 ≤ CRCWidth then atTop CRCWidth byte.toBitVec <<< k
  else ((byte.toBitVec <<< k) >>> (8 - CRCWidth)).setWidth CRCWidth

theorem remainderOf_CalculateRemainderBits
    {parameters : Parameters w CRCWidth} {register : BitVec w}
    {remainder : BitVec CRCWidth} (byte : UInt8) {k : ℕ} (hk : k ≤ 8)
    (h : parameters.Holds register remainder) :
    parameters.remainderOf
        (CalculateRemainderBits byte k parameters register) =
      divide parameters.divisor remainder
          (byteBits parameters.reflectInput k byte)
        ^^^ unused parameters k byte := by
  rw [Parameters.Holds] at h
  rw [Parameters.remainderOf, CalculateRemainderBits, byteBits, unused]
  cases hreflect : parameters.reflectInput with
  | true =>
      rw [hreflect, if_pos rfl] at h
      rw [if_pos rfl, if_pos rfl, if_pos rfl, if_pos rfl, h,
        iterate_lowBit parameters remainder byte hk, BitVec.setWidth_xor,
        parameters.setWidth_widen, reverse_xor, BitVec.reverse_reverse_eq]
  | false =>
      rw [hreflect, if_neg Bool.false_ne_true] at h
      rw [if_neg Bool.false_ne_true, if_neg Bool.false_ne_true,
        if_neg Bool.false_ne_true, if_neg Bool.false_ne_true]
      by_cases hwidth : 8 ≤ CRCWidth
      · rw [if_pos hwidth, if_pos hwidth,
          iterate_highBit_wide parameters register byte hwidth hk, h]
      · have hle : CRCWidth ≤ 8 := by omega
        have hregister : (register <<< (8 - CRCWidth)).setWidth 8 =
            atTop 8 remainder := by
          rw [setWidth_shiftLeft_eq_atTop register hle parameters.byte_le, h]
        have hbits := iterate_highBit_narrow parameters byte hle k hregister
        rw [if_neg hwidth, if_neg hwidth, setWidth_ushiftRight _ hle, hbits,
          BitVec.ushiftRight_xor_distrib, BitVec.setWidth_xor,
          setWidth_atTop_ushiftRight _ hle]

theorem getElem?_byteBits (reflectInput : Bool) (byte : UInt8) (i : ℕ) :
    (byteBits reflectInput 8 byte)[i]?.getD false =
      if reflectInput then byte.toBitVec.getLsbD i
      else byte.toBitVec.getMsbD i := by
  have hrange : (List.range 8)[i]? = if i < 8 then some i else none := by
    by_cases hi : i < 8
    · rw [if_pos hi, List.getElem?_range hi]
    · rw [if_neg hi, List.getElem?_eq_none (by simpa using Nat.not_lt.mp hi)]
  cases reflectInput with
  | true =>
      rw [byteBits, if_pos rfl, if_pos rfl, lowBits, List.getElem?_map, hrange]
      by_cases hi : i < 8
      · rw [if_pos hi]
        rfl
      · rw [if_neg hi]
        exact (BitVec.getLsbD_of_ge _ i (Nat.not_lt.mp hi)).symm
  | false =>
      rw [byteBits, if_neg Bool.false_ne_true, if_neg Bool.false_ne_true,
        highBits, List.getElem?_map, hrange]
      by_cases hi : i < 8
      · rw [if_pos hi]
        rfl
      · rw [if_neg hi]
        exact (BitVec.getMsbD_of_ge _ i (Nat.not_lt.mp hi)).symm

theorem getMsbD_unused (parameters : Parameters w CRCWidth) (k : ℕ)
    (byte : UInt8) {i : ℕ} (hi : i < CRCWidth) :
    (unused parameters k byte).getMsbD i =
      (byteBits parameters.reflectInput 8 byte)[k + i]?.getD false := by
  have hbyte := parameters.byte_le
  rw [getElem?_byteBits, unused]
  cases parameters.reflectInput with
  | true =>
      rw [if_pos rfl, if_pos rfl, BitVec.getMsbD_reverse,
        BitVec.getLsbD_setWidth, BitVec.getLsbD_ushiftRight, ofByte,
        BitVec.getLsbD_setWidth, decide_eq_true hi, Bool.true_and]
      by_cases hin : k + i < w
      · rw [decide_eq_true hin, Bool.true_and]
      · rw [BitVec.getLsbD_of_ge _ (k + i) (by omega), Bool.and_false]
  | false =>
      rw [if_neg Bool.false_ne_true, if_neg Bool.false_ne_true]
      by_cases hwidth : 8 ≤ CRCWidth
      · rw [if_pos hwidth, BitVec.getMsbD_shiftLeft, getMsbD_atTop _ hwidth,
          Nat.add_comm]
      · have hlow : 8 - CRCWidth + (CRCWidth - 1 - i) = 8 - 1 - i := by omega
        have hin : CRCWidth - 1 - i < CRCWidth := by omega
        have hi8 : i < 8 := by omega
        have hmsb := BitVec.getMsbD_eq_getLsbD (byte.toBitVec <<< k) i
        rw [decide_eq_true hi8, Bool.true_and] at hmsb
        rw [if_neg hwidth, BitVec.getMsbD_eq_getLsbD, BitVec.getLsbD_setWidth,
          BitVec.getLsbD_ushiftRight, hlow, decide_eq_true hi,
          decide_eq_true hin, Bool.true_and, Bool.true_and, ← hmsb,
          BitVec.getMsbD_shiftLeft, Nat.add_comm]

/-- The unused bits are not seen exactly when those that fit into the CRC are
zero. -/
theorem unused_eq_zero_iff (parameters : Parameters w CRCWidth) (k : ℕ)
    (byte : UInt8) :
    unused parameters k byte = 0#(CRCWidth) ↔
      ∀ b ∈ ((byteBits parameters.reflectInput 8 byte).drop k).take CRCWidth,
        b = false := by
  have hread : ∀ i < CRCWidth,
      (((byteBits parameters.reflectInput 8 byte).drop k).take CRCWidth)[i]? =
        (byteBits parameters.reflectInput 8 byte)[k + i]? := by
    intro i hi
    rw [List.getElem?_take, if_pos hi, List.getElem?_drop]
  constructor
  · intro h b hb
    obtain ⟨i, hi⟩ := List.mem_iff_getElem?.mp hb
    have hlt : i < CRCWidth := by
      by_contra hge
      rw [List.getElem?_take, if_neg hge] at hi
      exact absurd hi (by simp)
    have hbit := getMsbD_unused parameters k byte hlt
    rw [h, ← hread i hlt, hi] at hbit
    simpa using hbit.symm
  · intro h
    apply BitVec.eq_of_getMsbD_eq
    intro i hi
    rw [getMsbD_unused parameters k byte hi, ← hread i hi]
    cases hb : (((byteBits parameters.reflectInput 8 byte).drop k).take
        CRCWidth)[i]? with
    | none => simp
    | some b =>
        have hfalse := h b (List.mem_iff_getElem?.mpr ⟨i, hb⟩)
        simp [hfalse]

/-! ### The bits of a message -/

theorem length_byteBits (reflectInput : Bool) (k : ℕ) (byte : UInt8) :
    (byteBits reflectInput k byte).length = k := by
  cases reflectInput with
  | true => simp [byteBits, lowBits]
  | false => simp [byteBits, highBits]

theorem take_byteBits (reflectInput : Bool) {k : ℕ} (hk : k ≤ 8)
    (byte : UInt8) :
    (byteBits reflectInput 8 byte).take k = byteBits reflectInput k byte := by
  cases reflectInput with
  | true => simp [byteBits, lowBits, ← List.map_take, List.take_range, hk]
  | false => simp [byteBits, highBits, ← List.map_take, List.take_range, hk]

theorem messageBits_cons (reflectInput : Bool) (byte : UInt8)
    (data : List UInt8) :
    messageBits reflectInput (byte :: data) =
      byteBits reflectInput 8 byte ++ messageBits reflectInput data :=
  List.flatMap_cons

theorem length_messageBits (reflectInput : Bool) (data : List UInt8) :
    (messageBits reflectInput data).length = 8 * data.length := by
  induction data with
  | nil => rfl
  | cons byte data ih =>
      rw [messageBits_cons, List.length_append, length_byteBits, ih,
        List.length_cons]
      omega

/-- The first `size` bits of a message, in the order in which they are
divided. -/
def firstBits (reflectInput : Bool) (data : List UInt8) (size : ℕ) :
    List Bool :=
  (messageBits reflectInput data).take size

/-- The bits behind the first `size` in the same byte that reach the CRC are
zero. -/
def Clear (parameters : Parameters w CRCWidth) (data : List UInt8)
    (size : ℕ) : Prop :=
  size % 8 ≠ 0 → ∀ b ∈
    ((messageBits parameters.reflectInput data).drop size).take
      (min CRCWidth (8 - size % 8)), b = false

theorem firstBits_append (reflectInput : Bool) (front back : List UInt8)
    (k : ℕ) :
    firstBits reflectInput (front ++ back) (8 * front.length + k) =
      messageBits reflectInput front ++ firstBits reflectInput back k := by
  rw [firstBits, messageBits_append, ← length_messageBits reflectInput,
    List.take_length_add_append]
  rfl

/-- Of a message that ends with a byte, the first bits are whole bytes. -/
theorem firstBits_of_mod_eq_zero (reflectInput : Bool) {data : List UInt8}
    {size : ℕ} (hsize : size ≤ 8 * data.length) (hzero : size % 8 = 0) :
    firstBits reflectInput data size =
      messageBits reflectInput (data.take (size / 8)) := by
  have hle : size / 8 ≤ data.length := by omega
  have happend := firstBits_append reflectInput (data.take (size / 8))
    (data.drop (size / 8)) 0
  rw [List.take_append_drop, List.length_take_of_le hle, Nat.add_zero,
    Nat.mul_div_cancel' (Nat.dvd_of_mod_eq_zero hzero)] at happend
  rw [happend, firstBits, List.take_zero, List.append_nil]

theorem firstBits_cons (reflectInput : Bool) (byte : UInt8)
    (rest : List UInt8) {k : ℕ} (hk : k ≤ 8) :
    firstBits reflectInput (byte :: rest) k = byteBits reflectInput k byte := by
  have hle : k ≤ (byteBits reflectInput 8 byte).length := by
    rwa [length_byteBits]
  rw [firstBits, messageBits_cons, List.take_append_of_le_length hle,
    take_byteBits reflectInput hk]

/-- The bits behind the end are those of the byte that is cut. -/
theorem clear_append_cons (parameters : Parameters w CRCWidth)
    (front rest : List UInt8) (lastByte : UInt8) {k : ℕ} (hzero : k ≠ 0)
    (hk : k < 8) :
    Clear parameters (front ++ lastByte :: rest) (8 * front.length + k) ↔
      unused parameters k lastByte = 0#(CRCWidth) := by
  have hmod : (8 * front.length + k) % 8 = k := by omega
  have hle : k ≤ (byteBits parameters.reflectInput 8 lastByte).length := by
    rw [length_byteBits]
    omega
  have hlength :
      ((byteBits parameters.reflectInput 8 lastByte).drop k).length =
        8 - k := by
    rw [List.length_drop, length_byteBits]
  have hfits : min CRCWidth (8 - k) ≤
      ((byteBits parameters.reflectInput 8 lastByte).drop k).length := by
    rw [hlength]
    exact Nat.min_le_right CRCWidth (8 - k)
  have hread : ((messageBits parameters.reflectInput
      (front ++ lastByte :: rest)).drop (8 * front.length + k)).take
        (min CRCWidth (8 - k)) =
      ((byteBits parameters.reflectInput 8 lastByte).drop k).take CRCWidth := by
    rw [messageBits_append, ← length_messageBits parameters.reflectInput,
      List.drop_length_add_append, messageBits_cons,
      List.drop_append_of_le_length hle, List.take_append_of_le_length hfits,
      ← List.take_take, ← hlength, List.take_length]
  rw [Clear, hmod, hread, unused_eq_zero_iff]
  exact ⟨fun h => h hzero, fun h _ => h⟩

/-! ### Calculations over bits -/

/-- What stays in the register of the byte in which a message of `size` bits
ends. -/
def trailing (parameters : Parameters w CRCWidth) (data : List UInt8)
    (size : ℕ) : BitVec CRCWidth :=
  if size % 8 = 0 then 0#(CRCWidth)
  else unused parameters (size % 8) (data[size / 8]?.getD 0)

/-- A message that reaches `size` bits is whole bytes and the byte in which it
ends, if it does not end with them. -/
theorem exists_lastByte {data : List UInt8} {size : ℕ}
    (hsize : size ≤ 8 * data.length) (hzero : size % 8 ≠ 0) :
    ∃ front lastByte rest, data = front ++ lastByte :: rest ∧
      front = data.take (size / 8) ∧ front.length = size / 8 := by
  have hlt : size / 8 < data.length := by omega
  refine ⟨data.take (size / 8), data[size / 8], data.drop (size / 8 + 1), ?_,
    rfl, List.length_take_of_le (Nat.le_of_lt hlt)⟩
  rw [← List.drop_eq_getElem_cons hlt, List.take_append_drop]

theorem trailing_eq_zero_iff (parameters : Parameters w CRCWidth)
    {data : List UInt8} {size : ℕ} (hsize : size ≤ 8 * data.length) :
    trailing parameters data size = 0#(CRCWidth) ↔
      Clear parameters data size := by
  by_cases hzero : size % 8 = 0
  · rw [trailing, if_pos hzero]
    exact iff_of_true rfl fun h => absurd hzero h
  · obtain ⟨front, lastByte, rest, rfl, -, hlen⟩ :=
      exists_lastByte hsize hzero
    have hk : size % 8 < 8 := Nat.mod_lt _ (by decide)
    have hsplit : 8 * front.length + size % 8 = size := by omega
    have hclear :=
      clear_append_cons parameters front rest lastByte hzero hk
    rw [hsplit] at hclear
    rw [trailing, if_neg hzero, hclear, ← hlen]
    simp

/-- The whole bytes in front of `size` bits are divided from `a`; without one
the register stays at `b`. -/
theorem wholeBytes_holds {parameters : Parameters w CRCWidth}
    {bytesFrom register : BitVec w} {a b : BitVec CRCWidth}
    (hbytes : parameters.Holds bytesFrom a)
    (hregister : parameters.Holds register b) {data : List UInt8} {size : ℕ}
    (hsize : size ≤ 8 * data.length) :
    ∃ r, wholeBytes (CalculateRemainder · parameters) data size bytesFrom
        register = some r ∧
      parameters.Holds r
        (divide parameters.divisor (if size < 8 then b else a)
          (messageBits parameters.reflectInput (data.take (size / 8)))) := by
  have hle : size / 8 ≤ data.length := by omega
  by_cases hlt : size < 8
  · have hnone : size / 8 = 0 := by omega
    refine ⟨register, ?_, ?_⟩
    · rw [wholeBytes, hnone, if_neg (Nat.lt_irrefl 0)]
    · rw [if_pos hlt, hnone]
      exact hregister
  · have hsome : 0 < size / 8 := by omega
    refine ⟨CalculateRemainder (data.take (size / 8)) parameters bytesFrom,
      ?_, ?_⟩
    · rw [wholeBytes, if_pos hsome, if_pos hle]
    · rw [if_neg hlt]
      exact CalculateRemainder_holds _ hbytes

/-- What a calculation over the first `size` bits divides: from `a` when there
is a whole byte, from `b` otherwise. -/
theorem calculateBits_eq {parameters : Parameters w CRCWidth}
    {bytesFrom register : BitVec w} {a b : BitVec CRCWidth}
    (hbytes : parameters.Holds bytesFrom a)
    (hregister : parameters.Holds register b) {data : List UInt8} {size : ℕ}
    (hsize : size ≤ 8 * data.length) :
    calculateBits (CalculateRemainder · parameters) data size parameters
        bytesFrom register =
      some ((parameters.result
        (divide parameters.divisor (if size < 8 then b else a)
            (firstBits parameters.reflectInput data size)
          ^^^ trailing parameters data size)).setWidth w) := by
  obtain ⟨r, hwhole, hr⟩ := wholeBytes_holds hbytes hregister hsize
  rw [calculateBits, hwhole, Option.bind_some, remainingBits, trailing]
  by_cases hzero : size % 8 = 0
  · have hbits := firstBits_of_mod_eq_zero parameters.reflectInput hsize hzero
    rw [if_neg (not_not_intro hzero), if_pos hzero, BitVec.xor_zero,
      Option.map_some, Parameters.finalize_eq,
      Parameters.remainderOf_of_holds hr, hbits]
  · obtain ⟨front, lastByte, rest, hdata, hfront, hlen⟩ :=
      exists_lastByte hsize hzero
    have hk : size % 8 ≤ 8 := Nat.le_of_lt (Nat.mod_lt _ (by decide))
    have hsplit : 8 * front.length + size % 8 = size := by omega
    have hread : data[size / 8]? = some lastByte := by
      rw [hdata, ← hlen]
      simp
    have hbits := firstBits_append parameters.reflectInput front
      (lastByte :: rest) (size % 8)
    rw [← hdata, hsplit, firstBits_cons _ _ _ hk] at hbits
    have hlast := remainderOf_CalculateRemainderBits lastByte hk hr
    rw [← hfront, ← divide_append, ← hbits] at hlast
    rw [if_pos hzero, if_neg hzero, hread, Option.map_some, Option.map_some,
      Option.getD_some, Parameters.finalize_eq, hlast]

theorem result_setWidth_inj (parameters : Parameters w CRCWidth)
    {a b : BitVec CRCWidth} :
    (parameters.result a).setWidth w = (parameters.result b).setWidth w ↔
      a = b := by
  constructor
  · intro h
    apply parameters.result_injective
    rw [← parameters.setWidth_widen (parameters.result a), h,
      parameters.setWidth_widen]
  · exact fun h => h ▸ rfl

theorem xor_eq_left_iff (a b : BitVec CRCWidth) :
    a ^^^ b = a ↔ b = 0#(CRCWidth) := by
  have h := BitVec.xor_right_inj (x := b) (y := 0#(CRCWidth)) a
  rw [BitVec.xor_zero] at h
  exact h

/-- A calculation over bits gives the CRC of the bits exactly when those behind
them in the last byte are zero, as far as they reach the CRC. -/
theorem CalculateBits_eq_iff {parameters : Parameters w CRCWidth}
    (h : parameters.InRange) {data : List UInt8} {size : ℕ}
    (hsize : size ≤ 8 * data.length) :
    CalculateBits data size parameters =
      some ((parameters.checksum
        (firstBits parameters.reflectInput data size)).setWidth w) ↔
      Clear parameters data size := by
  have hstart := Parameters.holds_initialValue h.initialValue
  rw [CalculateBits, calculateBits_eq hstart hstart hsize, ite_self,
    Option.some_inj, Parameters.checksum, result_setWidth_inj,
    xor_eq_left_iff, trailing_eq_zero_iff parameters hsize]

theorem CalculateBits_eq_iff_digits :
    CalculateBits [0x31, 0x05] 11 (ofParameters CRC_32) =
      some (((ofParameters CRC_32).checksum
        (firstBits true [0x31, 0x05] 11)).setWidth 32) ↔
      Clear (ofParameters CRC_32) [0x31, 0x05] 11 :=
  CalculateBits_eq_iff (ofParameters_inRange CRC_32) (by decide)

/-- Calculating on over bits gives the CRC of all the bits exactly when fewer
than eight of them follow or the CRC so far is that of no bits at all: the whole
bytes are calculated from the initial value. -/
theorem CalculateBitsAppended_eq_iff {parameters : Parameters w CRCWidth}
    (h : parameters.InRange) (hodd : parameters.divisor.getLsbD 0 = true)
    (before : List Bool) {data : List UInt8} {size : ℕ}
    (hsize : size ≤ 8 * data.length) (hclear : Clear parameters data size) :
    CalculateBitsAppended data size parameters
        ((parameters.checksum before).setWidth w) =
      some ((parameters.checksum
        (before ++
          firstBits parameters.reflectInput data size)).setWidth w) ↔
      size < 8 ∨ parameters.checksum before = parameters.checksum [] := by
  have hbefore := Parameters.holds_undoFinalize h.finalXOR
    (divide parameters.divisor parameters.start before)
  have hstart : parameters.checksum before = parameters.checksum [] ↔
      divide parameters.divisor parameters.start before = parameters.start :=
    parameters.result_injective.eq_iff
  rw [hstart, Parameters.checksum, Parameters.checksum, CalculateBitsAppended,
    calculateBits_eq (Parameters.holds_initialValue h.initialValue) hbefore
      hsize, Option.some_inj, result_setWidth_inj, divide_append,
    (trailing_eq_zero_iff parameters hsize).mpr hclear, BitVec.xor_zero,
    (divide_injective hodd _).eq_iff]
  by_cases hlt : size < 8
  · rw [if_pos hlt]
    exact iff_of_true rfl (Or.inl hlt)
  · rw [if_neg hlt, or_iff_right hlt, eq_comm]

theorem CalculateBitsAppended_eq_iff_digits :
    CalculateBitsAppended [0x31, 0x05] 11 (ofParameters CRC_32)
        (((ofParameters CRC_32).checksum [true]).setWidth 32) =
      some (((ofParameters CRC_32).checksum
        ([true] ++ firstBits true [0x31, 0x05] 11)).setWidth 32) ↔
      11 < 8 ∨
        (ofParameters CRC_32).checksum [true] =
          (ofParameters CRC_32).checksum [] :=
  CalculateBitsAppended_eq_iff (ofParameters_inRange CRC_32) (by decide) [true]
    (by decide) (by unfold Clear; decide)

end Template

end CRC

end NorbitDriver
