import PrefixScript.Text.Blank

/-!
# The Layout of a Text

How a text falls into lines, and a line into lexemes.

Only the line feed ends a line. A carriage return in front of it is a blank
like any other, so texts with either kind of line end have the same lexemes.
Within a line a lexeme is a longest run of characters that are not blank; the
blanks themselves are forgotten. A line whose first lexeme starts with two
slashes is a comment, which the meaning of the text passes over as a whole.

## Main definitions

* `lines`: The lines of a text.
* `lexemes`: The lexemes of a line.
* `isComment`: Whether a line is a comment.

## Theorems

* `lines_append_newline`: The lines around a line feed are cut independently.
* `length_lines`: A text has one line more than line feeds.
* `ne_nil_of_mem_lexemes`: No lexeme is empty.
* `lexemes_append_blank`: A blank cuts a line into independent parts.
* `lexemes_eq_singleton`: A run of characters that are not blank is one lexeme.
-/

namespace PrefixScript

namespace Text

/-- The lines of a text, without the line feeds between them. A text that ends
    in a line feed has an empty last line, and the empty text one empty
    line. -/
def lines (text : List Char) : List (List Char) :=
  text.splitOn '\n'

/-- The lexemes of a line, from left to right. -/
def lexemes (line : List Char) : List (List Char) :=
  (line.splitOnP isBlank).filter fun piece => !piece.isEmpty

/-- Whether a line is a comment: two slashes come first, blanks aside. -/
def isComment (line : List Char) : Bool :=
  ['/', '/'].isPrefixOf (line.dropWhile isBlank)

theorem lines_append_newline (before after : List Char) :
    lines (before ++ '\n' :: after) = lines before ++ lines after :=
  List.splitOn_append_cons_self before after

theorem length_lines (text : List Char) : (lines text).length = text.count '\n' + 1 := by
  induction text with
  | nil => rfl
  | cons c rest ih =>
      rw [lines, List.splitOn] at ih ⊢
      rw [List.splitOnP_cons_eq_if_modifyHead, List.count_cons]
      -- A line feed starts a line; any other character goes to the first line of the rest.
      by_cases hc : (c == '\n') = true
      · rw [if_pos hc, if_pos hc, List.length_cons, ih]
      · rw [if_neg hc, if_neg hc, List.length_modifyHead, ih]

@[simp] theorem lexemes_nil : lexemes [] = [] := rfl

theorem ne_nil_of_mem_lexemes (line lexeme : List Char) (h : lexeme ∈ lexemes line) :
    lexeme ≠ [] := by
  intro hnil
  rw [hnil] at h
  simp only [lexemes, List.mem_filter, List.isEmpty_nil, Bool.not_true, Bool.false_eq_true,
    and_false] at h

theorem lexemes_append_blank (before after : List Char) (c : Char) (h : isBlank c = true) :
    lexemes (before ++ c :: after) = lexemes before ++ lexemes after := by
  rw [lexemes, List.splitOnP_append_cons before after h, List.filter_append]
  rfl

theorem lexemes_eq_singleton (lexeme : List Char) (hne : lexeme ≠ [])
    (h : ∀ c ∈ lexeme, isBlank c = false) : lexemes lexeme = [lexeme] := by
  rw [lexemes, List.splitOnP_eq_singleton h, List.filter_cons_of_pos, List.filter_nil]
  simp only [List.isEmpty_eq_false_iff.mpr hne, Bool.not_false]

end Text

end PrefixScript
