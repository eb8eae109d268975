import PrefixScript.Statement

/-!
# Commands

What a statement asks for, if it asks for anything.

A statement is a command when it starts with a keyword, ends with its only
separator, and has between them as many operands as the keyword wants, each a
literal or a name. The first operand of a binding must be a name, since it is
where the value goes. A statement of any other form is no command, and has no
meaning and no effect.

An operand that is an integer literal beyond every value still is an operand.
Whether it can be used comes to light only when it is.

## Main definitions

* `Operand`: What stands for a value.
* `Operand.ofToken?`: The operand a token is.
* `Command`: The things a statement can ask for.
* `Command.ofOperands?`: The command of a keyword and its operands.
* `operands?`: The operands up to the separator that ends a statement.
* `Statement.command?`: The command a statement is.
* `Command.operands`, `Command.target?`: What a command reads, and what it binds.

## Theorems

* `length_of_ofOperands?`: A command has as many operands as its keyword wants.
-/

namespace PrefixScript

/-- What stands for a value in a statement. -/
inductive Operand where
  /-- The value itself. -/
  | literal (v : Value)
  /-- The variable that is bound to the value. -/
  | name (x : String)
  /-- An integer literal that is no value, as it was written. -/
  | oversized (digits : String)
  deriving DecidableEq, Repr

/-- The operand that a token is. Keywords and separators are none. -/
def Operand.ofToken? : Token → Option Operand
  | .literal v => some (.literal v)
  | .identifier x => some (.name x)
  | .oversized digits => some (.oversized digits)
  | .keyword _ | .separator => none

/-- What a statement asks for. -/
inductive Command where
  /-- Bind `target` to the value of `source`. -/
  | bind (target : String) (source : Located Operand)
  /-- Print the value of `operand`, and end the output line if `newline`. -/
  | write (operand : Located Operand) (newline : Bool)
  /-- Apply an operator to the values of two operands. -/
  | compute (op : Operator) (left right : Located Operand)
  deriving DecidableEq, Repr

namespace Command

/-- The command that a keyword and its operands make. -/
def ofOperands? : Keyword → List (Located Operand) → Option Command
  | .bind, [⟨.name target, _⟩, source] => some (.bind target source)
  | .print, [operand] => some (.write operand false)
  | .println, [operand] => some (.write operand true)
  | .operator op, [left, right] => some (.compute op left right)
  | _, _ => none

/-- The operands whose values a command needs, in the order it needs them. The
    target of a binding is not among them. -/
def operands : Command → List (Located Operand)
  | .bind _ source => [source]
  | .write operand _ => [operand]
  | .compute _ left right => [left, right]

/-- The variable a command binds, if it binds one. -/
def target? : Command → Option String
  | .bind target _ => some target
  | .write _ _ | .compute _ _ _ => none

theorem length_of_ofOperands? (keyword : Keyword) (operands : List (Located Operand))
    (command : Command) (h : ofOperands? keyword operands = some command) :
    operands.length = keyword.arity := by
  unfold ofOperands? at h
  -- One case for each form of a command, and one for everything else.
  split at h
  · rfl
  · rfl
  · rfl
  · rfl
  · exact absurd h (by simp only [reduceCtorEq, not_false_eq_true])

end Command

namespace Statement

/-- The operands in a sequence of tokens that ends with its only separator; none
    if it ends otherwise or if any other token is no operand. -/
def operands? : List (Located Token) → Option (List (Located Operand))
  | [] => none
  | [⟨.separator, _⟩] => some []
  | token :: rest =>
    match Operand.ofToken? token.item, operands? rest with
    | some operand, some operands => some (⟨operand, token.line⟩ :: operands)
    | _, _ => none

/-- The command that a statement is. -/
def command? (statement : Statement) : Option Command :=
  match statement.tokens with
  | ⟨.keyword k, _⟩ :: rest => (operands? rest).bind (Command.ofOperands? k)
  | _ => none

end Statement

end PrefixScript
