import PrefixScript.Proofs.Spelling
import PrefixScript.Token.Stream

/-!
# The Provenance of Tokens

Where in a text a token has come from.

A token only remembers its line. Still, every token of a text was read from one
certain lexeme, and the tokens in front of it tell which: they are what was read
from the lines above and from the lexemes to the left. So a token together with
its place among the tokens of the text has one place in the text, and whatever
is said about the token can be said about the lexeme.

The lines of the tokens never go down along the text, since the lines of the
text are read in order.

## Main definitions

* `ofLexemes`: The tokens of lexemes on one line.
* `ReadFrom`: A token is read from a certain lexeme of a text.

## Theorems

* `exists_readFrom`: Every token of a text is read from a lexeme.
* `lexical_of_mem_ofText`: Only what can be spelled is read.
* `one_le_line_of_mem_ofText`, `line_le_of_mem_ofText`, `pairwise_line_ofText`: The
  lines of tokens start at one, end with the text, and never go down.
-/

namespace PrefixScript

namespace Token

/-- The tokens of some lexemes on the line with the given number. -/
def ofLexemes (number : Nat) (lexemes : List (List Char)) : List (Located Token) :=
  lexemes.filterMap fun lexeme => (ofLexeme? lexeme).map fun token => ⟨token, number⟩

/-- Among the tokens of the lines, the one behind `earlier` is read from the
    given lexeme on the given line: in front of it come the tokens of the lines
    above, and those of the lexemes to its left. -/
def ReadFrom (start : Nat) (lines : List (List Char)) (earlier : List (Located Token))
    (token : Located Token) (line lexeme : List Char) : Prop :=
  ∃ above below left right,
    lines = above ++ line :: below ∧ Text.isComment line = false ∧
    Text.lexemes line = left ++ lexeme :: right ∧
    token.line = start + above.length ∧ ofLexeme? lexeme = some token.item ∧
    earlier = ofLines start above ++ ofLexemes token.line left

theorem ofLine_of_not_comment (number : Nat) (line : List Char)
    (h : Text.isComment line = false) :
    ofLine number line = ofLexemes number (Text.lexemes line) := by
  rw [ofLine, h]
  rfl

/-- Inside a line, the token behind some others is read from the lexeme behind
    those that were read as these. -/
theorem exists_lexeme_of_ofLine_eq_append (number : Nat) (line : List Char)
    (earlier later : List (Located Token)) (token : Located Token)
    (h : ofLine number line = earlier ++ token :: later) :
    Text.isComment line = false ∧ token.line = number ∧
      ∃ left lexeme right, Text.lexemes line = left ++ lexeme :: right ∧
        ofLexeme? lexeme = some token.item ∧ earlier = ofLexemes number left := by
  have hmem : token ∈ ofLine number line := by
    rw [h]
    exact List.mem_append_right earlier List.mem_cons_self
  cases hcomment : Text.isComment line with
  | true =>
      rw [ofLine, hcomment] at hmem
      exact absurd hmem List.not_mem_nil
  | false =>
      refine ⟨rfl, line_of_mem_ofLine number line token hmem, ?_⟩
      rw [ofLine_of_not_comment number line hcomment, ofLexemes, List.filterMap_eq_append_iff] at h
      rcases h with ⟨left, rest, hsplit, hleft, hrest⟩
      -- Lexemes that are no token may stand between the last token and this one.
      rcases List.filterMap_eq_cons_iff.mp hrest with
        ⟨skipped, lexeme, right, rfl, hskipped, hread, _⟩
      rcases Option.map_eq_some_iff.mp hread with ⟨item, hitem, rfl⟩
      refine ⟨left ++ skipped, lexeme, right, ?_, hitem, ?_⟩
      · rw [hsplit, List.append_assoc]
      · rw [ofLexemes, List.filterMap_append, hleft, List.filterMap_eq_nil_iff.mpr hskipped,
          List.append_nil]

theorem exists_readFrom_ofLines (start : Nat) (lines : List (List Char))
    (earlier later : List (Located Token)) (token : Located Token)
    (h : ofLines start lines = earlier ++ token :: later) :
    ∃ line lexeme, ReadFrom start lines earlier token line lexeme := by
  -- Down the lines, until the tokens of a line reach beyond `earlier`.
  induction lines generalizing start earlier with
  | nil => exact absurd h.symm (by simp only [ofLines_nil, List.append_eq_nil_iff, reduceCtorEq,
      and_false, not_false_eq_true])
  | cons first rest ih =>
      -- The token is further down, or on the first line.
      have hcases : (∃ between, earlier = ofLine start first ++ between ∧
          ofLines (start + 1) rest = between ++ token :: later) ∨
          ∃ behind, ofLine start first = earlier ++ token :: behind := by
        rw [ofLines_cons] at h
        rcases List.append_eq_append_iff.mp h with hbelow | ⟨behind, hfirst, hbehind⟩
        · exact Or.inl hbelow
        · rcases List.cons_eq_append_iff.mp hbehind with ⟨rfl, hrest⟩ | ⟨behind', rfl, _⟩
          · exact Or.inl ⟨[], by rw [hfirst, List.append_nil, List.append_nil], hrest⟩
          · exact Or.inr ⟨behind', hfirst⟩
      rcases hcases with ⟨between, rfl, hrest⟩ | ⟨behind, hfirst⟩
      · rcases ih (start + 1) between hrest with
          ⟨line, lexeme, above, below, left, right, rfl, hcomment, hlexemes, hline, hitem, hearlier⟩
        refine ⟨line, lexeme, first :: above, below, left, right, rfl, hcomment, hlexemes, ?_, hitem,
          ?_⟩
        · rw [hline, List.length_cons]
          omega
        · rw [hearlier, ofLines_cons, List.append_assoc]
      · rcases exists_lexeme_of_ofLine_eq_append start first earlier behind token hfirst with
          ⟨hcomment, hline, left, lexeme, right, hlexemes, hitem, hearlier⟩
        refine ⟨first, lexeme, [], rest, left, right, rfl, hcomment, hlexemes, hline, hitem, ?_⟩
        rw [hearlier, hline]
        rfl

/-- Every token of a text is read from one of its lexemes. -/
theorem exists_readFrom (source : String) (earlier later : List (Located Token))
    (token : Located Token) (h : ofText source = earlier ++ token :: later) :
    ∃ line lexeme, ReadFrom 1 (Text.lines source.toList) earlier token line lexeme :=
  exists_readFrom_ofLines 1 (Text.lines source.toList) earlier later token h

/-- Only what can be spelled is read. -/
theorem lexical_of_mem_ofText (source : String) (token : Located Token)
    (h : token ∈ ofText source) : token.item.Lexical := by
  rcases List.append_of_mem h with ⟨earlier, later, hsplit⟩
  rcases exists_readFrom source earlier later token hsplit with
    ⟨line, lexeme, _, _, _, _, _, _, _, _, hitem, _⟩
  exact lexical_of_spells lexeme token.item ((ofLexeme?_eq_some_iff lexeme token.item).mp hitem)

theorem le_line_of_mem_ofLines (start : Nat) (lines : List (List Char)) (token : Located Token)
    (h : token ∈ ofLines start lines) : start ≤ token.line := by
  rcases List.append_of_mem h with ⟨earlier, later, hsplit⟩
  rcases exists_readFrom_ofLines start lines earlier later token hsplit with
    ⟨line, lexeme, above, _, _, _, _, _, _, hline, _, _⟩
  omega

theorem pairwise_line_ofLines (start : Nat) (lines : List (List Char)) :
    (ofLines start lines).Pairwise fun token later => token.line ≤ later.line := by
  induction lines generalizing start with
  | nil => exact List.Pairwise.nil
  | cons first rest ih =>
      rw [ofLines_cons, List.pairwise_append]
      refine ⟨?_, ih (start + 1), fun token htoken later hlater => ?_⟩
      · -- On one line all numbers are the same.
        refine List.pairwise_of_forall_mem_list fun token htoken later hlater => ?_
        have htoken := line_of_mem_ofLine start first token htoken
        have hlater := line_of_mem_ofLine start first later hlater
        exact Nat.le_of_eq (htoken.trans hlater.symm)
      · rw [line_of_mem_ofLine start first token htoken]
        exact Nat.le_of_succ_le (le_line_of_mem_ofLines (start + 1) rest later hlater)

theorem one_le_line_of_mem_ofText (source : String) (token : Located Token)
    (h : token ∈ ofText source) : 1 ≤ token.line :=
  le_line_of_mem_ofLines 1 (Text.lines source.toList) token h

theorem line_le_of_mem_ofText (source : String) (token : Located Token)
    (h : token ∈ ofText source) : token.line ≤ 1 + source.toList.count '\n' := by
  rcases List.append_of_mem h with ⟨earlier, later, hsplit⟩
  rcases exists_readFrom source earlier later token hsplit with
    ⟨line, lexeme, above, below, _, _, hlines, _, _, hline, _, _⟩
  -- The line is one of the lines of the text, of which there is one more than line feeds.
  have hlength := Text.length_lines source.toList
  rw [hlines, List.length_append, List.length_cons] at hlength
  omega

/-- The lines of the tokens never go down along a text. -/
theorem pairwise_line_ofText (source : String) :
    (ofText source).Pairwise fun token later => token.line ≤ later.line :=
  pairwise_line_ofLines 1 (Text.lines source.toList)

end Token

end PrefixScript
