import PrefixScript.Token

/-!
# Statements

A sequence of tokens cut into statements.

A separator ends the statement it stands in and belongs to it. Lines play no
part: a statement may run over many of them, and a line may hold many
statements. Tokens after the last separator belong to no statement, and nothing
is ever done with them.

The cut is made from the right. A separator opens a new statement in front of
those already found, and any other token joins the first of them; when there is
none to join, no separator follows and the token is left over.

## Main definitions

* `Statement`: The tokens of a statement, as they stand in the text.
* `Statement.line`: The line a statement starts on.
* `Statement.ofTokens`: The statements of a sequence of tokens.

## Theorems

* `ofTokens_cons_of_ne_separator`: A token that is no separator joins the statement it
  precedes.
-/

namespace PrefixScript

/-- The tokens of a statement. Those that come out of a text end in their only
    separator, but nothing here depends on it. -/
structure Statement where
  tokens : List (Located Token)
  deriving DecidableEq, Repr

namespace Statement

/-- The line a statement starts on, or zero for a statement without tokens,
    which starts nowhere. -/
def line (statement : Statement) : Nat :=
  match statement.tokens with
  | token :: _ => token.line
  | [] => 0

/-- Put a token in front of the statements of the tokens that follow it. -/
def prepend (token : Located Token) (statements : List Statement) : List Statement :=
  if token.item = .separator then ⟨[token]⟩ :: statements
  else statements.modifyHead fun first => ⟨token :: first.tokens⟩

/-- The statements of a sequence of tokens, in order. -/
def ofTokens (tokens : List (Located Token)) : List Statement :=
  tokens.foldr prepend []

@[simp] theorem ofTokens_nil : ofTokens [] = [] := rfl

theorem ofTokens_cons (token : Located Token) (tokens : List (Located Token)) :
    ofTokens (token :: tokens) = prepend token (ofTokens tokens) := rfl

theorem ofTokens_cons_of_ne_separator (token : Located Token) (tokens : List (Located Token))
    (h : token.item ≠ .separator) :
    ofTokens (token :: tokens) =
      (ofTokens tokens).modifyHead fun first => ⟨token :: first.tokens⟩ := by
  rw [ofTokens_cons, prepend, if_neg h]

end Statement

end PrefixScript
