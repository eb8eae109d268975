/-!
# Blank Characters

Which characters keep two lexemes apart.

A blank is a character with the Unicode property White_Space. The property is
a table and not a rule: it takes in the tabulators and line ends of ASCII, the
next-line character, the no-break spaces and the line and paragraph
separators, and leaves out characters that look just as empty, such as the
zero-width space U+200B and the byte order mark U+FEFF. A character outside the
table is part of a lexeme, whatever it looks like.

## Main definitions

* `blankRanges`: The table.
* `isBlank`: Whether a character is in it.

## Theorems

* `isBlank_of_isWhitespace`: Every blank of ASCII that Lean's own test knows is
  a blank here.
* `isBlank_eq_false_of_isAlphanum`: A letter or digit of ASCII is never blank.
-/

namespace PrefixScript

namespace Text

/-- The ranges of the property White_Space, both ends included, in increasing
    order. -/
def blankRanges : List (Nat × Nat) :=
  [(0x0009, 0x000D), (0x0020, 0x0020), (0x0085, 0x0085), (0x00A0, 0x00A0),
   (0x1680, 0x1680), (0x2000, 0x200A), (0x2028, 0x2029), (0x202F, 0x202F),
   (0x205F, 0x205F), (0x3000, 0x3000)]

/-- Whether `c` keeps two lexemes apart. -/
def isBlank (c : Char) : Bool :=
  blankRanges.any fun range => range.1 ≤ c.toNat && c.toNat ≤ range.2

theorem isBlank_of_isWhitespace (c : Char) (h : c.isWhitespace = true) : isBlank c = true := by
  simp only [Char.isWhitespace, Bool.or_eq_true, decide_eq_true_eq] at h
  rcases h with ((h | h) | h) | h <;> subst h <;> decide

theorem isBlank_eq_false_of_isAlphanum (c : Char) (h : c.isAlphanum = true) :
    isBlank c = false := by
  delta Char.isAlphanum Char.isAlpha Char.isUpper Char.isLower Char.isDigit at h
  simp only [Bool.or_eq_true, Bool.and_eq_true, decide_eq_true_eq, UInt32.le_iff_toNat_le,
    ge_iff_le] at h
  simp only [isBlank, blankRanges, List.any_cons, List.any_nil, Bool.or_false, Bool.or_eq_false_iff,
    Bool.and_eq_false_iff, decide_eq_false_iff_not, Char.toNat]
  simp only [UInt32.reduceToNat, Char.reduceVal] at h
  -- No range of the table meets the three ranges of letters and digits.
  omega

end Text

end PrefixScript
