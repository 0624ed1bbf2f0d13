import Mathlib.Algebra.Field.Rat
import NorbitDriver.Bytes.Layout

/-!
# The numbers that binary32 values stand for

A finite binary32 value stands for a rational number: its significand of 24
bits, the first of which is not stored, times a power of two. Infinities and
NaNs, which have all bits of the exponent set, stand for no number, and are read
as zero here.
-/

namespace Bytes

namespace Binary32

/-- The number that a binary32 value stands for. The significand is scaled by
`2 ^ 150`, which makes all exponents positive. -/
def value (b : Binary32) : ℚ :=
  let n := b.bits.toNat
  let sign : ℚ := if n / 2 ^ 31 = 0 then 1 else -1
  let exponent : ℕ := n / 2 ^ 23 % 256
  let fraction : ℕ := n % 2 ^ 23
  if exponent = 255 then 0
  else if exponent = 0 then sign * (fraction * 2 / 2 ^ 150)
  else sign * ((2 ^ 23 + fraction) * 2 ^ exponent / 2 ^ 150)

theorem value_half : value ⟨0x3F000000⟩ = 1 / 2 := by
  decide +kernel

theorem value_one : value ⟨0x3F800000⟩ = 1 := by
  decide +kernel

theorem value_two : value ⟨0x40000000⟩ = 2 := by
  decide +kernel

end Binary32

end Bytes
