/-
Arithmetic of doubles on the rationals they stand for.

An operation on doubles computes the exact result and rounds it to the nearest
double, to the even one of two that are equally near. Rounding is a function on the
rationals here, with the exponents of the subnormal numbers but no largest one, so a
result that overflows is still a rational.
-/

import Mathlib.Algebra.Order.Round
import Mathlib.Data.Int.Log
import Mathlib.Data.Rat.Floor
import Mathlib.Tactic.Linarith
import Mathlib.Tactic.NormNum
import Mathlib.Tactic.Positivity
import Mathlib.Tactic.Ring

namespace ListmonkOps.Math.Double

/-- The nearest integer, the even one of two. -/
def roundEven (x : ℚ) : ℤ :=
  if 1 / 2 < Int.fract x ∨ (Int.fract x = 1 / 2 ∧ ⌊x⌋ % 2 = 1) then ⌊x⌋ + 1 else ⌊x⌋

/-- The exponent of the last of the 53 bits of a double about as large as `x`. -/
def lastPlace (x : ℚ) : ℤ := max (Int.log 2 |x| - 52) (-1074)

def ofRat (x : ℚ) : ℚ := roundEven (x / 2 ^ lastPlace x) * 2 ^ lastPlace x

end ListmonkOps.Math.Double
