/-!
# Checked Integer Arithmetic

Arithmetic on signed 64-bit integers that answers only when the answer is
right.

Each operation is the machine operation behind a guard. The guard of a sum, a
difference or a product asks whether the machine operation would leave its
range; the guard of a quotient asks for the two cases in which a quotient does
not exist or does not fit, a divisor of zero and the least integer divided by
minus one. Behind the guard the machine operation does not wrap, so a wrapped
number never comes out. A quotient is cut off toward zero.

## Main definitions

* `add?`, `sub?`, `mul?`, `div?`: The guarded operations.
-/

namespace PrefixScript

namespace Checked

/-- The sum, unless it is out of range. -/
def add? (m n : Int64) : Option Int64 :=
  if m.toBitVec.saddOverflow n.toBitVec then none else some (m + n)

/-- The difference, unless it is out of range. -/
def sub? (m n : Int64) : Option Int64 :=
  if m.toBitVec.ssubOverflow n.toBitVec then none else some (m - n)

/-- The product, unless it is out of range. -/
def mul? (m n : Int64) : Option Int64 :=
  if m.toBitVec.smulOverflow n.toBitVec then none else some (m * n)

/-- The quotient cut off toward zero, unless the divisor is zero or the
    quotient is out of range, which happens for one pair of integers only. -/
def div? (m n : Int64) : Option Int64 :=
  if n = 0 ∨ (m = Int64.minValue ∧ n = -1) then none else some (m / n)

end Checked

end PrefixScript
