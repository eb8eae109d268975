import PrefixScript.Operator

/-!
# Keywords

The reserved words that say what a statement does.

A statement binds a variable, prints a value, or applies an operator, and its
first word says which. Each keyword has one spelling, and no two keywords share
it.

## Main definitions

* `Keyword`: The keywords, the operators among them.
* `Keyword.word`: The spelling of a keyword.
* `Keyword.arity`: How many operands its statement has.
* `Keyword.operator?`: The operator it applies, if it applies one.
* `Keyword.ofWord?`: The keyword that a word spells.

## Theorems

* `mem_all`: The list of keywords is complete.
* `ofWord?_eq_some_iff`: A word spells a keyword exactly if it is its spelling.
-/

namespace PrefixScript

/-- What the first word of a statement asks for. -/
inductive Keyword where
  /-- Bind a variable to a value. -/
  | bind
  /-- Print a value. -/
  | print
  /-- Print a value and end the output line. -/
  | println
  /-- Apply an operator to two values. -/
  | operator (op : Operator)
  deriving DecidableEq, Repr

namespace Keyword

/-- The spelling of a keyword. -/
def word : Keyword → String
  | .bind => "let"
  | .print => "print"
  | .println => "println"
  | .operator .eq => "eq"
  | .operator .add => "add"
  | .operator .sub => "sub"
  | .operator .mul => "mul"
  | .operator .div => "div"

/-- How many operands a statement with this keyword has. -/
def arity : Keyword → Nat
  | .print | .println => 1
  | .bind | .operator _ => 2

/-- The operator that a statement with this keyword applies. -/
def operator? : Keyword → Option Operator
  | .operator op => some op
  | .bind | .print | .println => none

/-- All keywords. -/
def all : List Keyword :=
  [.bind, .print, .println, .operator .eq, .operator .add, .operator .sub, .operator .mul,
   .operator .div]

/-- The keyword that a word spells. -/
def ofWord? (word : List Char) : Option Keyword :=
  all.find? fun keyword => keyword.word.toList == word

theorem mem_all (keyword : Keyword) : keyword ∈ all := by
  cases keyword with
  | operator op => cases op <;> decide
  | bind | print | println => decide

theorem ofWord?_word (keyword : Keyword) : ofWord? keyword.word.toList = some keyword := by
  cases keyword with
  | operator op => cases op <;> decide
  | bind | print | println => decide

theorem ofWord?_eq_some_iff (word : List Char) (keyword : Keyword) :
    ofWord? word = some keyword ↔ word = keyword.word.toList := by
  constructor
  · intro h
    -- The search stops at a keyword whose word this is.
    have hword := List.find?_some h
    exact (eq_of_beq hword).symm
  · intro h
    rw [h]
    exact ofWord?_word keyword

end Keyword

end PrefixScript
