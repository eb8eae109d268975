import PrefixScript.Text.Decimal

/-!
# Faults

Why a script stops before its end.

There are three causes, and each is reported together with the line of the
operand that could not be used. The wording of a report is here and nowhere
else.

## Main definitions

* `Cause`: What went wrong.
* `Fault`: A cause, and the line it is reported for.
* `Cause.text`, `Fault.message`: The wording.
-/

namespace PrefixScript

/-- What keeps a script from going on. -/
inductive Cause where
  /-- A name is used that no statement before has bound. -/
  | unknownVariable (name : String)
  /-- An integer literal is used that is larger than every value. -/
  | literalTooLarge (digits : String)
  /-- The output does not take a printed value; `details` is its excuse. -/
  | outputFailed (details : String)
  deriving DecidableEq, Repr

/-- A cause, and the line of the operand it arose at. -/
structure Fault where
  cause : Cause
  line : Nat
  deriving DecidableEq, Repr

/-- The sentence for a cause. -/
def Cause.text : Cause → String
  | .unknownVariable name => "Unknown variable '" ++ name ++ "'."
  | .literalTooLarge digits => "Literal '" ++ digits ++ "' is too large."
  | .outputFailed details => "Failed to write output: " ++ details ++ "."

/-- The report of a fault. -/
def Fault.message (fault : Fault) : String :=
  "Error on line " ++ String.ofList (Decimal.digits fault.line) ++ ": " ++ fault.cause.text

end PrefixScript
