import PrefixScript.Text.Decimal

/-!
# Values

What an operand of a script stands for: a signed 64-bit integer or a truth
value.

A value has one written form, which printing a value and naming a literal
token both use. Two values of different kinds are never equal, and there is no
conversion between the kinds.

## Main definitions

* `Kind`: Integers and truth values.
* `Value`: A value of either kind.
* `Value.kind`, `Value.int?`: The kind of a value, and its integer if it is
  one.
* `Value.chars`, `Value.text`: The written form.

## Theorems

* `toList_text`: The written form as a list of characters.
-/

namespace PrefixScript

/-- The kinds of value. -/
inductive Kind where
  | int
  | bool
  deriving DecidableEq, Repr

/-- A value that a script reads, stores, computes or prints. -/
inductive Value where
  | int (n : Int64)
  | bool (b : Bool)
  deriving DecidableEq, Repr

/-- The name of a kind. -/
def Kind.text : Kind → String
  | .int => "int"
  | .bool => "bool"

namespace Value

/-- The kind a value belongs to. -/
def kind : Value → Kind
  | .int _ => .int
  | .bool _ => .bool

/-- The integer behind a value, if it is one. -/
def int? : Value → Option Int64
  | .int n => some n
  | .bool _ => none

/-- The written form of a value, character by character: a decimal number, or
    the word for the truth value. -/
def chars : Value → List Char
  | .int n => Decimal.ofInt n.toInt
  | .bool true => ['t', 'r', 'u', 'e']
  | .bool false => ['f', 'a', 'l', 's', 'e']

/-- The written form of a value. -/
def text (v : Value) : String :=
  String.ofList v.chars

@[simp] theorem toList_text (v : Value) : v.text.toList = v.chars :=
  String.toList_ofList

end Value

end PrefixScript
