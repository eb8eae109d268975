import PrefixScript.Value
import PrefixScript.Value.Checked

/-!
# Operators

The five operations a script can apply to two values, and what they answer.

An operator answers with a value or not at all. Comparison answers for two
values of the same kind, arithmetic for two integers whose result is exact and
in range. Everything else is silence, not an error: a script goes on after it.

## Main definitions

* `Operator`: The operations.
* `Operator.equal?`: Comparison of two values.
* `Operator.arithmetic?`: Arithmetic on two values.
* `Operator.answer?`: What an operator answers.

## Theorems

* `answer?_eq`: The comparison operator compares.
* `answer?_of_ne_eq`: Every other operator is arithmetic.
-/

namespace PrefixScript

/-- The operations on two values. -/
inductive Operator where
  | eq
  | add
  | sub
  | mul
  | div
  deriving DecidableEq, Repr

namespace Operator

/-- Whether two values of the same kind are equal; nothing for values of
    different kinds, which are not compared. -/
def equal? : Value → Value → Option Value
  | .int m, .int n => some (.bool (m == n))
  | .bool a, .bool b => some (.bool (a == b))
  | _, _ => none

/-- The exact result of an arithmetic operator on two integers, if there is one
    in range. Comparison is no arithmetic and has none. -/
def arithmetic? : Operator → Value → Value → Option Value
  | .add, .int m, .int n => (Checked.add? m n).map .int
  | .sub, .int m, .int n => (Checked.sub? m n).map .int
  | .mul, .int m, .int n => (Checked.mul? m n).map .int
  | .div, .int m, .int n => (Checked.div? m n).map .int
  | _, _, _ => none

/-- What an operator answers for two values. -/
def answer? (op : Operator) (left right : Value) : Option Value :=
  match op with
  | .eq => equal? left right
  | _ => arithmetic? op left right

theorem answer?_eq (left right : Value) : answer? .eq left right = equal? left right := rfl

theorem answer?_of_ne_eq (op : Operator) (h : op ≠ .eq) (left right : Value) :
    answer? op left right = arithmetic? op left right := by
  cases op with
  | eq => exact absurd rfl h
  | add | sub | mul | div => rfl

end Operator

end PrefixScript
