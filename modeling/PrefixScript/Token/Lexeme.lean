import PrefixScript.Token

/-!
# Classification of Lexemes

Which token a lexeme is, if it is one.

A lexeme is taken whole: a token followed by anything else is no token. The
classes do not overlap except that a reserved word has the shape of a name, and
then it is the reserved word. A lexeme of no class means nothing and is passed
over in silence.

## Main definitions

* `ofWord?`: A keyword or a truth value.
* `ofNumeral?`: An integer literal, or one that is too large.
* `isName`, `ofName?`: A variable.
* `ofLexeme?`: The token a lexeme is.

## Theorems

* `ofLexeme?_nil`: Nothing is no token.
* `ofLexeme?_word`: The spelling of a keyword is that keyword.
-/

namespace PrefixScript

namespace Token

/-- The bound that an integer literal has to stay below to be a value, the
    63rd power of two. -/
def literalBound : Nat :=
  0x8000000000000000

/-- The token that a reserved word stands for: a keyword or a truth value. -/
def ofWord? (lexeme : List Char) : Option Token :=
  match Keyword.ofWord? lexeme with
  | some k => some (.keyword k)
  | none =>
    if lexeme = (Value.bool true).chars then some (.literal (.bool true))
    else if lexeme = (Value.bool false).chars then some (.literal (.bool false))
    else none

/-- The integer literal that a digit string is. The value of the digits, and
    not their number, decides whether it is too large. -/
def ofNumeral? (lexeme : List Char) : Option Token :=
  if Decimal.isNumeral lexeme then
    if Decimal.value lexeme < literalBound then
      some (.literal (.int (Int64.ofNat (Decimal.value lexeme))))
    else some (.oversized (String.ofList lexeme))
  else none

/-- Whether a lexeme has the shape of a name: a letter, perhaps after one
    underscore, and then letters, digits and underscores, all of them ASCII. -/
def isName (lexeme : List Char) : Bool :=
  match lexeme with
  | '_' :: c :: rest => c.isAlpha && rest.all isNamePart
  | c :: rest => c.isAlpha && rest.all isNamePart
  | [] => false
where
  /-- Whether a character may stand inside a name. -/
  isNamePart (c : Char) : Bool := c.isAlphanum || c == '_'

/-- The variable that a name stands for. -/
def ofName? (lexeme : List Char) : Option Token :=
  if isName lexeme then some (.identifier (String.ofList lexeme)) else none

/-- The token that a lexeme is. Reserved words come before names, which have
    the same shape. -/
def ofLexeme? (lexeme : List Char) : Option Token :=
  if lexeme = [';'] then some .separator
  else ofWord? lexeme <|> ofNumeral? lexeme <|> ofName? lexeme

theorem ofLexeme?_nil : ofLexeme? [] = none := by
  decide

theorem ofLexeme?_word (k : Keyword) :
    ofLexeme? k.word.toList = some (.keyword k) := by
  cases k with
  | operator op => cases op <;> decide
  | bind | print | println => decide

end Token

end PrefixScript
