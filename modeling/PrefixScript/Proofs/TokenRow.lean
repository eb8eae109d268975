import PrefixScript.CommandLine.Report
import PrefixScript.Proofs.Image

/-!
# Rows

The row of a token in the list of tokens.

A row is a number at the right edge of a column, two spaces, a description and a
line feed. It is made for people, but nothing is lost in it, since each of these
can be cut off again: the spaces in front of the number are no part of it, the
digits end where the next space is, and what a description quotes stands behind
its first backquote, whatever it is. So a row belongs to one token on one line
only.

The tokens of a text have no line feed in them, so the only line feed of their
rows is the one at the end, and a row is one line.

## Main definitions

* `Token.className`: The part of a description in front of the first backquote.
* `rowChars`: A row, without its line feed.
* `IsLine`: One whole line.

## Theorems

* `Decimal.digits_injective`, `Decimal.ofInt_injective`: Numbers are written in
  different ways.
* `Token.text_eq`, `Token.text_injective`: A description quotes a spelling, and
  different tokens have different descriptions.
* `Token.newline_not_mem_text`: A description stays on its line.
* `takeWhile_dropWhile_padded`: A number can be read off its column.
* `tokenRow_eq`: A row, piece by piece.
* `rowChars_injective`: A row belongs to one token on one line.
* `isLine_tokenRow`: A row is one line.
-/

namespace PrefixScript

/-! ### Numbers and words -/

namespace Decimal

theorem digits_injective : Function.Injective digits :=
  Function.LeftInverse.injective value_digits

/-- The minus sign, which is no digit, tells negative numbers from the others. -/
theorem ofInt_injective : Function.Injective ofInt := by
  -- A minus sign is no digit.
  have hsign : ∀ m n, digits m ≠ '-' :: digits n := by
    intro m n h
    have hdigit := isDigit_of_mem_digits m '-' (by rw [h]; exact List.mem_cons_self)
    exact absurd hdigit (by decide)
  intro m n h
  cases m with
  | ofNat m =>
      cases n with
      | ofNat n => exact congrArg Int.ofNat (digits_injective h)
      | negSucc n => exact absurd h (hsign m (n + 1))
  | negSucc m =>
      cases n with
      | ofNat n => exact absurd h.symm (hsign n (m + 1))
      | negSucc n =>
          have hsucc := digits_injective (List.cons.inj h).2
          rw [Nat.succ.inj hsucc]

end Decimal

theorem Keyword.word_injective : Function.Injective word := by
  intro k k' h
  have hk := ofWord?_word k
  rw [h, ofWord?_word k'] at hk
  exact (Option.some.inj hk).symm

/-! ### Descriptions -/

namespace Token

/-- The part of a description in front of the first backquote. -/
def className : Token → String
  | .keyword _ => "keyword "
  | .literal v => v.kind.text ++ " literal "
  | .identifier _ => "identifier "
  | .separator => "separator "
  | .oversized _ => "oversized int literal "

/-- A description is the name of a class, and a spelling in backquotes. -/
theorem text_eq (token : Token) :
    token.text = token.className ++ "`" ++ String.ofList token.spelling ++ "`" := by
  cases token with
  | keyword k =>
      change "keyword `" ++ k.word ++ "`" = _
      simp only [className, spelling, String.ofList_toList, String.reduceAppend]
  | literal v =>
      change v.kind.text ++ " literal `" ++ String.ofList v.chars ++ "`" = _
      -- The name of the class is that of the kind.
      cases v <;> simp only [className, spelling, Value.kind, Kind.text, String.reduceAppend]
  | identifier x =>
      change "identifier `" ++ x ++ "`" = _
      simp only [className, spelling, String.ofList_toList, String.reduceAppend]
  | separator => rfl
  | oversized digits =>
      change "oversized int literal `" ++ digits ++ "`" = _
      simp only [className, spelling, String.ofList_toList, String.reduceAppend]

theorem toList_text (token : Token) :
    token.text.toList = token.className.toList ++ '\x60' :: (token.spelling ++ ['\x60']) := by
  simp only [text_eq, String.toList_append, String.toList_ofList, List.append_assoc]
  rfl

/-- All that a name of a class is made of. -/
theorem mem_className (token : Token) (c : Char) (h : c ∈ token.className.toList) :
    c.isAlpha = true ∨ c = ' ' := by
  let names := ["keyword ", "int literal ", "bool literal ", "identifier ", "separator ",
    "oversized int literal "]
  have hall : (names.all fun name => name.toList.all fun c => c.isAlpha || c == ' ') = true := by
    decide +kernel
  have hmem : token.className ∈ names := by
    rcases token with k | (n | b) | x | _ | digits <;>
      simp only [names, className, Value.kind, Kind.text, String.reduceAppend, List.mem_cons,
        true_or, or_true]
  have hname := List.all_eq_true.mp hall token.className hmem
  rcases Bool.or_eq_true_iff.mp (List.all_eq_true.mp hname c h) with halpha | hspace
  · exact Or.inl halpha
  · exact Or.inr (eq_of_beq hspace)

/-- Inside a class the spelling makes the token. -/
theorem eq_of_className_eq (token other : Token) (hclass : token.className = other.className)
    (hspelling : token.spelling = other.spelling) : token = other := by
  -- Of the pairs of classes only those with the same name are left.
  rcases token with k | (n | b) | x | _ | digits <;>
    rcases other with k' | (n' | b') | x' | _ | digits' <;>
    simp only [className, Value.kind, Kind.text, String.reduceAppend, String.reduceEq] at hclass
  · rw [Keyword.word_injective (String.toList_inj.mp hspelling)]
  · rw [Int64.toInt_inj.mp (Decimal.ofInt_injective hspelling)]
  · cases b <;> cases b' <;> first | rfl | exact absurd hspelling (by decide)
  · rw [String.toList_inj.mp hspelling]
  · rfl
  · rw [String.toList_inj.mp hspelling]

/-- The name of the class ends at the first backquote, so both the class and what is
    quoted can be read off a description. -/
theorem text_injective : Function.Injective text := by
  have hname : ∀ token : Token,
      token.text.toList.takeWhile (· != '\x60') = token.className.toList := by
    intro token
    rw [toList_text, List.takeWhile_append_of_pos, List.takeWhile_cons_of_neg, List.append_nil]
    · decide
    · intro c hc
      rcases mem_className token c hc with hletter | rfl
      · rw [bne_iff_ne]
        rintro rfl
        exact absurd hletter (by decide)
      · decide
  intro token other h
  have hclass : token.className.toList = other.className.toList := by
    rw [← hname, ← hname, h]
  -- The spelling may have backquotes in it, so its end is told by the end of the text.
  have hquoted := congrArg String.toList h
  rw [toList_text, toList_text, hclass] at hquoted
  have hspelling := (List.cons.inj (List.append_cancel_left hquoted)).2
  exact eq_of_className_eq token other (String.toList_inj.mp hclass)
    (List.append_cancel_right hspelling)

/-- The tokens of a text have no line feed in them, so a description stays on its
    line. -/
theorem newline_not_mem_text (token : Token) (h : token.Lexical) : '\n' ∉ token.text.toList := by
  intro hmem
  rw [toList_text, List.mem_append, List.mem_cons, List.mem_append, List.mem_singleton] at hmem
  rcases hmem with hname | hquote | hspelling | hquote
  · rcases mem_className token '\n' hname with hletter | hspace
    · exact absurd hletter (by decide)
    · exact absurd hspace (by decide)
  · exact absurd hquote (by decide)
  · -- A spelling is a lexeme, and a lexeme has no blank in it.
    exact Text.newline_not_mem_of_isLexeme token.spelling (isLexeme_spelling token h) hspelling
  · exact absurd hquote (by decide)

end Token

/-! ### Rows -/

namespace Decimal

theorem toList_toString (n : Nat) : (toString n).toList = digits n :=
  Nat.toList_repr

theorem mem_padded (width n : Nat) (c : Char) (h : c ∈ padded width n) :
    c = ' ' ∨ c.isDigit = true := by
  unfold padded List.leftpad at h
  rcases List.mem_append.mp h with hspace | hdigit
  · exact Or.inl (List.eq_of_mem_replicate hspace)
  · exact Or.inr (isDigit_of_mem_digits n c hdigit)

/-- A number can be read off its column: the spaces in front of it are not digits, and
    it ends at the next space. -/
theorem takeWhile_dropWhile_padded (width n : Nat) (rest : List Char) :
    ((padded width n ++ ' ' :: rest).dropWhile (· == ' ')).takeWhile Char.isDigit = digits n := by
  have hstart : (digits n ++ ' ' :: rest).dropWhile (· == ' ') = digits n ++ ' ' :: rest := by
    rcases List.exists_cons_of_ne_nil (digits_ne_nil n) with ⟨c, more, hdigits⟩
    have hdigit := isDigit_of_mem_digits n c (by rw [hdigits]; exact List.mem_cons_self)
    rw [hdigits, List.cons_append, List.dropWhile_cons_of_neg]
    rw [beq_iff_eq]
    rintro rfl
    exact absurd hdigit (by decide)
  -- Leading spaces go first, then the digits are taken up to the space behind them.
  unfold padded List.leftpad
  rw [List.append_assoc, List.dropWhile_append_of_pos, hstart, List.takeWhile_append_of_pos,
    List.takeWhile_cons_of_neg, List.append_nil]
  · decide
  · exact isDigit_of_mem_digits n
  · intro c hc
    rw [List.eq_of_mem_replicate hc]
    rfl

end Decimal

namespace CommandLine

/-- One line, with the line feed at its end. -/
def IsLine (text : String) : Prop :=
  ∃ words, '\n' ∉ words.toList ∧ text = words ++ "\n"

/-- A row of the list, without the line feed at its end. -/
def rowChars (token : Located Token) : List Char :=
  Decimal.padded 4 token.line ++ ' ' :: ' ' :: token.item.text.toList

/-- A row is the number of a line, filled up to four characters with spaces on the left,
    two spaces, the description, and a line feed. -/
theorem tokenRow_eq (token : Located Token) :
    tokenRow token =
      String.ofList ((toString token.line).toList.leftpad 4 ' ') ++ "  " ++ token.item.text ++
        "\n" := by
  rw [tokenRow, Decimal.padded, Decimal.toList_toString]

theorem toList_tokenRow (token : Located Token) :
    (tokenRow token).toList = rowChars token ++ ['\n'] := by
  unfold tokenRow rowChars
  simp only [String.toList_append, String.toList_ofList, List.append_assoc, List.cons_append]
  rfl

/-- A row belongs to one token on one line. -/
theorem rowChars_injective : Function.Injective rowChars := by
  intro token other h
  have hdigits : Decimal.digits token.line = Decimal.digits other.line := by
    rw [← Decimal.takeWhile_dropWhile_padded 4 token.line (' ' :: token.item.text.toList),
      ← Decimal.takeWhile_dropWhile_padded 4 other.line (' ' :: other.item.text.toList)]
    exact congrArg (fun row => (row.dropWhile (· == ' ')).takeWhile Char.isDigit) h
  have hline := Decimal.digits_injective hdigits
  -- Behind numbers that are the same the descriptions must be the same.
  unfold rowChars at h
  rw [hline] at h
  have htext := (List.cons.inj (List.cons.inj (List.append_cancel_left h)).2).2
  have hitem := Token.text_injective (String.toList_inj.mp htext)
  rcases token with ⟨item, line⟩
  rcases other with ⟨item', line'⟩
  simp only at hline hitem
  rw [hline, hitem]

theorem newline_not_mem_rowChars (token : Located Token) (h : token.item.Lexical) :
    '\n' ∉ rowChars token := by
  intro hmem
  unfold rowChars at hmem
  rw [List.mem_append, List.mem_cons, List.mem_cons] at hmem
  -- Part by part: the column of the number, two spaces, and the description.
  rcases hmem with hnumber | hspace | hspace | htext
  · rcases Decimal.mem_padded 4 token.line '\n' hnumber with hspace | hdigit
    · exact absurd hspace (by decide)
    · exact absurd hdigit (by decide)
  · exact absurd hspace (by decide)
  · exact absurd hspace (by decide)
  · exact Token.newline_not_mem_text token.item h htext

/-- A row is one line. -/
theorem isLine_tokenRow (token : Located Token) (h : token.item.Lexical) :
    IsLine (tokenRow token) := by
  refine ⟨String.ofList (rowChars token), ?_, ?_⟩
  · rw [String.toList_ofList]
    exact newline_not_mem_rowChars token h
  · rw [← String.toList_inj, toList_tokenRow, String.toList_append, String.toList_ofList]
    rfl

end CommandLine

end PrefixScript
