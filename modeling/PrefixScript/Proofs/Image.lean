import Mathlib.Data.List.Basic
import Mathlib.Data.List.TakeWhile
import PrefixScript.Proofs.Layout
import PrefixScript.Proofs.Provenance

/-!
# The Image of Reading

Which sequences of tokens are the tokens of a text.

A text cannot produce every sequence of tokens. Its tokens have spellings, and
their lines start at one and never go down. These two conditions are all there
is: a sequence that meets them can be written down, every token in its usual
spelling and on its line, and reading what was written gives the sequence back.

Writing takes care that reading does not go wrong. A space behind every lexeme
keeps it apart from the next, a line without tokens is written as an empty line
so that the lines below it keep their numbers, and no line is taken for a
comment, since no token is spelled with a slash.

## Main definitions

* `Text.typeset`: Lines of lexemes as a text.
* `toLines`: Tokens as lines of lexemes.
* `written`: Tokens as a text.

## Theorems

* `layout_typeset`: What is typeset is laid out.
* `ofLexemeLines_toLines`: Reading lines of lexemes undoes writing them.
* `ofText_written`: Reading undoes writing.
* `exists_ofText_eq_iff`: The sequences of tokens that are read from a text.
-/

namespace PrefixScript

namespace Text

/-- A line of lexemes, with a space behind each of them. -/
def typesetLine (line : List (List Char)) : List Char :=
  line.flatMap fun lexeme => lexeme ++ [' ']

/-- Lines of lexemes as a text, with a line feed behind each of them. -/
def typeset (lines : List (List (List Char))) : List Char :=
  lines.flatMap fun line => typesetLine line ++ ['\n']

theorem isGap_space : IsGap [' '] := by
  intro c hc
  rw [List.mem_singleton.mp hc]
  decide

theorem lineBody_typesetLine (lexeme : List Char) (rest : List (List Char))
    (hlexeme : IsLexeme lexeme) (h : ∀ other ∈ rest, IsLexeme other) :
    LineBody (lexeme :: rest) (typesetLine (lexeme :: rest)) := by
  induction rest generalizing lexeme with
  | nil =>
      rw [typesetLine, List.flatMap_cons, List.flatMap_nil, List.append_nil]
      exact .last lexeme [' '] hlexeme isGap_space
  | cons next rest ih =>
      have hnext := ih next (h next List.mem_cons_self) fun other hother =>
        h other (List.mem_cons_of_mem next hother)
      -- A space follows every lexeme, so the next one is kept apart.
      exact .cons lexeme [' '] (next :: rest) _ hlexeme isGap_space (List.cons_ne_nil _ _) hnext

theorem lineLayout_typesetLine (line : List (List Char)) (h : ∀ lexeme ∈ line, IsLexeme lexeme) :
    LineLayout line (typesetLine line) := by
  cases line with
  | nil => exact .blank [] isGap_nil
  | cons lexeme rest =>
      refine .filled [] _ _ isGap_nil (lineBody_typesetLine lexeme rest ?_ ?_)
      · exact h lexeme List.mem_cons_self
      · exact fun other hother => h other (List.mem_cons_of_mem lexeme hother)

/-- What is typeset is laid out. -/
theorem layout_typeset (lines : List (List (List Char)))
    (h : ∀ line ∈ lines, ∀ lexeme ∈ line, IsLexeme lexeme) : Layout lines (typeset lines) := by
  induction lines with
  | nil => exact .nil
  | cons line rest ih =>
      have hline := lineLayout_typesetLine line (h line List.mem_cons_self)
      have hrest := ih fun other hother => h other (List.mem_cons_of_mem line hother)
      exact .cons line (typesetLine line) ['\n'] rest (typeset rest) hline (Or.inl rfl) hrest

end Text

namespace Token

/-- Tokens as `count` lines of lexemes, the first of which has number `start`. -/
def toLines : Nat → Nat → List (Located Token) → List (List (List Char))
  | 0, _, _ => []
  | count + 1, start, tokens =>
    (tokens.takeWhile (·.line == start)).map (·.item.spelling) ::
      toLines count (start + 1) (tokens.dropWhile (·.line == start))

/-- The number of the last line that has a token, or zero without tokens. -/
def lastLine (tokens : List (Located Token)) : Nat :=
  (tokens.map Located.line).foldr max 0

/-- Tokens as a text, each in its usual spelling and on its line. -/
def written (tokens : List (Located Token)) : String :=
  String.ofList (Text.typeset (toLines (lastLine tokens) 1 tokens))

theorem isLexeme_spelling (token : Token) (h : token.Lexical) : Text.IsLexeme token.spelling := by
  have hspells := spells_spelling token h
  refine ⟨not_nil_of_spells _ token hspells, fun c hc => ?_⟩
  -- Apart from letters and digits there are only the underscore and the semicolon.
  rcases char_of_spells _ token hspells c hc with hc | rfl | rfl
  · exact Text.isBlank_eq_false_of_isAlphanum c hc
  · decide
  · decide

/-- What spells a token is never taken for a comment. -/
theorem isPrefixOf_spelling (token : Token) (h : token.Lexical) :
    ['/', '/'].isPrefixOf token.spelling = false := by
  rw [Bool.eq_false_iff]
  intro hprefix
  -- No spelling has a slash in it, so none starts a comment.
  have hslash : '/' ∈ token.spelling :=
    (List.isPrefixOf_iff_prefix.mp hprefix).subset List.mem_cons_self
  rcases char_of_spells _ token (spells_spelling token h) '/' hslash with hc | hc | hc <;>
    exact absurd hc (by decide)

theorem isLexeme_of_mem_toLines (count start : Nat) (tokens : List (Located Token))
    (h : ∀ token ∈ tokens, token.item.Lexical) :
    ∀ line ∈ toLines count start tokens, ∀ lexeme ∈ line, Text.IsLexeme lexeme := by
  induction count generalizing start tokens with
  | zero => exact fun line hline => absurd hline List.not_mem_nil
  | succ count ih =>
      intro line hline
      rcases List.mem_cons.mp hline with rfl | hline
      · -- The first line is made of the tokens up to the first one of a later line.
        intro lexeme hlexeme
        rcases List.mem_map.mp hlexeme with ⟨token, htoken, rfl⟩
        exact isLexeme_spelling token.item (h token ((List.takeWhile_sublist _).mem htoken))
      · exact ih (start + 1) _ (fun token htoken => h token ((List.dropWhile_sublist _).mem htoken))
          line hline

/-- Reading a line of spellings gives back the tokens, if they are on that line. -/
theorem ofLexemeLine_spelling (number : Nat) (tokens : List (Located Token))
    (h : ∀ token ∈ tokens, token.item.Lexical ∧ token.line = number) :
    ofLexemeLine number (tokens.map (·.item.spelling)) = tokens := by
  have hcomment : Text.startsComment (tokens.map (·.item.spelling)) = false := by
    cases tokens with
    | nil => rfl
    | cons token rest => exact isPrefixOf_spelling token.item (h token List.mem_cons_self).1
  have hread : ∀ token ∈ tokens,
      (ofLexeme? token.item.spelling).map (fun item => (⟨item, number⟩ : Located Token)) =
        some token := by
    intro token htoken
    rcases h token htoken with ⟨hlexical, rfl⟩
    rw [(ofLexeme?_eq_some_iff _ _).mpr (spells_spelling token.item hlexical)]
    rfl
  -- The line is no comment, and each of its lexemes is read as what it spells.
  rw [ofLexemeLine, hcomment, if_neg Bool.false_ne_true, List.filterMap_map]
  exact (List.filterMap_congr hread).trans (List.filterMap_some)

/-- Behind the tokens of the first line come those of the lines below. -/
theorem succ_le_line_of_mem_dropWhile (start : Nat) (tokens : List (Located Token))
    (hsorted : tokens.Pairwise fun token later => token.line ≤ later.line)
    (hstart : ∀ token ∈ tokens, start ≤ token.line) :
    ∀ token ∈ tokens.dropWhile (·.line == start), start + 1 ≤ token.line := by
  induction tokens with
  | nil => exact fun token htoken => absurd htoken List.not_mem_nil
  | cons first rest ih =>
      rw [List.pairwise_cons] at hsorted
      have hfirst := hstart first List.mem_cons_self
      by_cases hline : first.line = start
      · rw [List.dropWhile_cons_of_pos (by rw [hline, beq_self_eq_true])]
        exact ih hsorted.2 fun token htoken => hstart token (List.mem_cons_of_mem first htoken)
      · -- The first token is below the line already, and no later one is above the first.
        rw [List.dropWhile_cons_of_neg (by rw [beq_iff_eq]; exact hline)]
        intro token htoken
        rcases List.mem_cons.mp htoken with rfl | htoken
        · omega
        · have hlater := hsorted.1 token htoken
          omega

/-- Reading lines of lexemes undoes writing them. -/
theorem ofLexemeLines_toLines (count start : Nat) (tokens : List (Located Token))
    (hlexical : ∀ token ∈ tokens, token.item.Lexical)
    (hsorted : tokens.Pairwise fun token later => token.line ≤ later.line)
    (hrange : ∀ token ∈ tokens, start ≤ token.line ∧ token.line < start + count) :
    ofLexemeLines start (toLines count start tokens) = tokens := by
  -- Line by line, each of which takes its tokens off the front.
  induction count generalizing start tokens with
  | zero =>
      cases tokens with
      | nil => rfl
      | cons first rest =>
          have hfirst := hrange first List.mem_cons_self
          omega
  | succ count ih =>
      have htake : ∀ token ∈ tokens.takeWhile (·.line == start),
          token.item.Lexical ∧ token.line = start := by
        intro token htoken
        have hline := List.mem_takeWhile_imp htoken
        exact ⟨hlexical token ((List.takeWhile_sublist _).mem htoken), eq_of_beq hline⟩
      have hsub := List.dropWhile_sublist (fun token : Located Token => token.line == start)
        (l := tokens)
      have hbelow := succ_le_line_of_mem_dropWhile start tokens hsorted fun token htoken =>
        (hrange token htoken).1
      have hdrop := ih (start + 1) (tokens.dropWhile (·.line == start))
        (fun token htoken => hlexical token (hsub.mem htoken)) (hsorted.sublist hsub) (by
          intro token htoken
          have hline := hbelow token htoken
          have hlast := hrange token (hsub.mem htoken)
          omega)
      rw [toLines, ofLexemeLines_cons, ofLexemeLine_spelling start _ htake, hdrop,
        List.takeWhile_append_dropWhile]

theorem line_le_lastLine (tokens : List (Located Token)) (token : Located Token)
    (h : token ∈ tokens) : token.line ≤ lastLine tokens := by
  induction tokens with
  | nil => exact absurd h List.not_mem_nil
  | cons first rest ih =>
      rcases List.mem_cons.mp h with rfl | hrest
      · exact Nat.le_max_left _ _
      · exact Nat.le_trans (ih hrest) (Nat.le_max_right _ _)

/-- Reading a text undoes writing it. -/
theorem ofText_written (tokens : List (Located Token))
    (hlexical : ∀ token ∈ tokens, token.item.Lexical)
    (hstart : ∀ token ∈ tokens, 1 ≤ token.line)
    (hsorted : tokens.Pairwise fun token later => token.line ≤ later.line) :
    ofText (written tokens) = tokens := by
  have hlayout := Text.layout_typeset _
    (isLexeme_of_mem_toLines (lastLine tokens) 1 tokens hlexical)
  rw [ofText, written, String.toList_ofList, ofLines_of_layout 1 _ _ hlayout]
  refine ofLexemeLines_toLines (lastLine tokens) 1 tokens hlexical hsorted fun token htoken => ?_
  -- There are enough lines for the last token.
  have hlast := line_le_lastLine tokens token htoken
  exact ⟨hstart token htoken, by omega⟩

/-- The sequences of tokens that are read from a text are those whose lines start at
    one and never go down and whose tokens can be spelled. -/
theorem exists_ofText_eq_iff (tokens : List (Located Token)) :
    (∃ source, ofText source = tokens) ↔
      (∀ token ∈ tokens, 1 ≤ token.line) ∧
      (tokens.Pairwise fun token later => token.line ≤ later.line) ∧
      ∀ token ∈ tokens, token.item.Lexical := by
  constructor
  · -- What is read has the properties, and what has them is read from what is written.
    rintro ⟨source, rfl⟩
    exact ⟨one_le_line_of_mem_ofText source, pairwise_line_ofText source,
      lexical_of_mem_ofText source⟩
  · rintro ⟨hstart, hsorted, hlexical⟩
    exact ⟨written tokens, ofText_written tokens hlexical hstart hsorted⟩

end Token

end PrefixScript
