import NorbitDriver.Bytes.Layout

/-!
# Floating point values read exactly

The driver computes with binary32 and binary64 values. They are read as
elements of a type `R` with exact operations: the value of a bit pattern and the
two trigonometric functions are parameters, and each function is the same
whether the source takes its single or its double precision form.
-/

namespace NorbitDriver

/-- The reading of floating point values in a field. -/
structure Arithmetic (R : Type*) where
  value : Bytes.Binary32 → R
  sinf : R → R
  cosf : R → R

end NorbitDriver
