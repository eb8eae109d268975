import PrefixScript.Text.Layout
import PrefixScript.Token.Lexeme

/-!
# The Tokens of a Text

A script as the sequence of its tokens, each with the number of its line.

Comment lines are left out, and so are lexemes that are no token; both still
count as lines, so a token's line is always its line in the text.

## Main definitions

* `ofLine`: The tokens of one line.
* `ofLines`: The tokens of consecutive lines.
* `ofText`: The tokens of a text.

## Theorems

* `line_of_mem_ofLine`: Every token of a line has that line's number.
* `ofLines_append`: The tokens of consecutive lines, part by part.
-/

namespace PrefixScript

namespace Token

/-- The tokens of the line with number `line`. -/
def ofLine (line : Nat) (text : List Char) : List (Located Token) :=
  if Text.isComment text then []
  else (Text.lexemes text).filterMap fun lexeme => (ofLexeme? lexeme).map fun token => ⟨token, line⟩

/-- The tokens of consecutive lines, the first of which has number `start`. -/
def ofLines (start : Nat) (texts : List (List Char)) : List (Located Token) :=
  (texts.zipIdx start).flatMap fun (text, line) => ofLine line text

theorem line_of_mem_ofLine (line : Nat) (text : List Char) (token : Located Token)
    (h : token ∈ ofLine line text) : token.line = line := by
  unfold ofLine at h
  split at h
  · exact absurd h List.not_mem_nil
  · simp only [List.mem_filterMap, Option.map_eq_some_iff] at h
    rcases h with ⟨_, _, _, _, rfl⟩
    rfl

@[simp] theorem ofLines_nil (start : Nat) : ofLines start [] = [] := rfl

@[simp] theorem ofLines_cons (start : Nat) (text : List Char) (texts : List (List Char)) :
    ofLines start (text :: texts) = ofLine start text ++ ofLines (start + 1) texts := rfl

theorem ofLines_append (start : Nat) (before after : List (List Char)) :
    ofLines start (before ++ after) =
      ofLines start before ++ ofLines (start + before.length) after := by
  simp only [ofLines, List.zipIdx_append, List.flatMap_append]

/-- The tokens of a text, in order, each with the number of its line. -/
def ofText (source : String) : List (Located Token) :=
  ofLines 1 (Text.lines source.toList)

end Token

end PrefixScript
