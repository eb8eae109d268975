import PrefixScript.Keyword

/-!
# Tokens

The parts of a script that mean something.

A token says all that the rest of the language knows about a lexeme. An integer
literal that is too large for a value is a token of its own and keeps its
digits as they were written, so that a script is refused only if it gets as far
as using the literal, and the refusal can quote it.

## Main definitions

* `Token`: The tokens.
* `Token.text`: A description of a token for people.
* `Located`: Something together with the line it stands on.

## Theorems

* `map_item`, `map_line`: Changing what is located leaves the line alone.
-/

namespace PrefixScript

/-- A meaningful part of a script. -/
inductive Token where
  /-- A reserved word. -/
  | keyword (k : Keyword)
  /-- A value, written out. -/
  | literal (v : Value)
  /-- The name of a variable. -/
  | identifier (name : String)
  /-- The end of a statement. -/
  | separator
  /-- An integer literal beyond every integer value, as it was written. -/
  | oversized (digits : String)
  deriving DecidableEq, Repr

/-- The description of a token: its class, and its lexeme in backquotes. -/
def Token.text : Token → String
  | .keyword k => "keyword `" ++ k.word ++ "`"
  | .literal v => v.kind.text ++ " literal `" ++ v.text ++ "`"
  | .identifier name => "identifier `" ++ name ++ "`"
  | .separator => "separator `;`"
  | .oversized digits => "oversized int literal `" ++ digits ++ "`"

/-- Something together with the number of the line it stands on. The first
    line of a text has the number one. -/
structure Located (α : Type) where
  item : α
  line : Nat
  deriving DecidableEq, Repr

namespace Located

variable {α β : Type}

/-- Put something else on the same line. -/
def map (f : α → β) (located : Located α) : Located β :=
  ⟨f located.item, located.line⟩

@[simp] theorem map_item (f : α → β) (located : Located α) :
    (located.map f).item = f located.item := rfl

@[simp] theorem map_line (f : α → β) (located : Located α) :
    (located.map f).line = located.line := rfl

end Located

end PrefixScript
