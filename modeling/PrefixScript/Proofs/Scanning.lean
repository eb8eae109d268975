import Mathlib.Data.List.Induction
import PrefixScript.Proofs.Spelling

/-!
# Scanning

Classification by a scanner that does not know where a lexeme ends.

A scanner is told where to start and finds out by itself where to stop. It takes
the longest piece that some pattern matches, and where a word and a name are the
same piece, the word. To classify a lexeme with it is to scan once and to ask
whether the piece is the whole lexeme.

This is not the same question as which pattern matches the lexeme, and it has the
same answer. A pattern that matches the lexeme matches the longest piece there
is, so no shorter one can be found in its place; and a piece that falls short of
the lexeme shows that no pattern matches all of it. What the scanner would find
behind the piece is never looked at, so a lexeme is not cut into several tokens.

How long a digit string is does not decide which token it is. Its value does, and
digit strings of the same value differ in the zeros in front of them only. They
are the only lexemes that share a token.

## Main definitions

* `Decimal.significant`: The digits behind the leading zeros.
* `Pattern`, `Pattern.Matches`: The patterns, and what they match.
* `Token.WrittenAs`: How a token is written, class by class.
* `Found`: What a scanner finds at the start of a text.
* `LongestMatch`: The rules that a scanner follows.
* `classify`: Classification with one scan.
* `longest?`: A scanner that tries the longer pieces first.

## Theorems

* `significant_eq_of_value_eq`: Digit strings of one value have the same
  significant digits.
* `spells_of_matches`, `exists_matches_of_spells`: What the patterns match is what
  spells a token.
* `ofLexeme?_eq_none_iff`: A lexeme is no token if no pattern matches it.
* `ofLexeme?_eq_some_iff_writtenAs`: A lexeme is a token if it is written like it.
* `numerals_of_same_token`: Lexemes that share a token are numerals.
* `classify_eq_ofLexeme?`: One scan is enough.
* `longestMatch_longest?`: The rules of a scanner can be followed.
* `classify_grammar`: The grammar of tokens.
-/

namespace PrefixScript

/-! ### Digit strings of the same value -/

namespace Decimal

/-- The digits behind the leading zeros. -/
def significant (text : List Char) : List Char :=
  text.dropWhile (· == '0')

theorem value_concat (text : List Char) (c : Char) :
    value (text ++ [c]) = 10 * value text + (c.toNat - '0'.toNat) := by
  rw [value, Nat.ofDigitChars_append, Nat.ofDigitChars_cons]
  rfl

theorem significant_concat (text : List Char) (c : Char) :
    significant (text ++ [c]) =
      if (significant text).isEmpty then significant [c] else significant text ++ [c] :=
  List.dropWhile_append

theorem toNat_of_isDigit (c : Char) (h : c.isDigit = true) :
    '0'.toNat ≤ c.toNat ∧ c.toNat ≤ '0'.toNat + 9 := by
  simp only [Char.isDigit, Bool.and_eq_true, decide_eq_true_eq, UInt32.le_iff_toNat_le,
    ge_iff_le, UInt32.reduceToNat, Char.reduceVal] at h
  exact h

theorem significant_eq_nil_of_value_eq_zero (text : List Char)
    (hdigits : ∀ c ∈ text, c.isDigit = true) (h : value text = 0) : significant text = [] := by
  induction text using List.reverseRecOn with
  | nil => rfl
  | append_singleton before c ih =>
      have hc := toNat_of_isDigit c (hdigits c (List.mem_append_right before List.mem_cons_self))
      rw [value_concat] at h
      -- Ten times the rest and the last digit add up to zero, so both are zero.
      have hbefore := ih (fun d hd => hdigits d (List.mem_append_left [c] hd)) (by omega)
      have hzero : c = '0' := Char.toNat_inj.mp (by omega)
      rw [significant_concat, hbefore, hzero]
      rfl

/-- Digit strings of the same value differ in their leading zeros only. -/
theorem significant_eq_of_value_eq (text other : List Char)
    (htext : ∀ c ∈ text, c.isDigit = true) (hother : ∀ c ∈ other, c.isDigit = true)
    (h : value text = value other) : significant text = significant other := by
  -- The last digit is the remainder by ten, and the value of the others is the quotient.
  induction text using List.reverseRecOn generalizing other with
  | nil => exact (significant_eq_nil_of_value_eq_zero other hother h.symm).symm
  | append_singleton before c ih =>
      cases other using List.reverseRecOn with
      | nil => exact significant_eq_nil_of_value_eq_zero _ htext h
      | append_singleton before' d =>
          have hc := toNat_of_isDigit c (htext c (List.mem_append_right before List.mem_cons_self))
          have hd := toNat_of_isDigit d (hother d (List.mem_append_right before' List.mem_cons_self))
          rw [value_concat, value_concat] at h
          have hcd : c = d := Char.toNat_inj.mp (by omega)
          have hbefore := ih before' (fun e he => htext e (List.mem_append_left [c] he))
            (fun e he => hother e (List.mem_append_left [d] he)) (by omega)
          rw [significant_concat, significant_concat, hbefore, hcd]

theorem exists_zeros_append_significant (text : List Char) :
    ∃ n, text = List.replicate n '0' ++ significant text := by
  refine ⟨(text.takeWhile (· == '0')).length, ?_⟩
  -- What is left out in front consists of zeros.
  have hzeros : text.takeWhile (· == '0') =
      List.replicate (text.takeWhile (· == '0')).length '0' :=
    List.eq_replicate_iff.mpr
      ⟨rfl, fun c hc => eq_of_beq (List.all_eq_true.mp List.all_takeWhile c hc)⟩
  rw [← hzeros]
  exact List.takeWhile_append_dropWhile.symm

end Decimal

/-! ### Patterns -/

/-- The patterns of tokens. -/
inductive Pattern where
  | keyword (k : Keyword)
  | truth (b : Bool)
  | separator
  | number
  | name
  deriving DecidableEq, Repr

namespace Pattern

/-- The texts that a pattern matches as a whole. A name may look like a word. -/
def Matches (text : List Char) : Pattern → Prop
  | .keyword k => text = k.word.toList
  | .truth b => text = (Value.bool b).chars
  | .separator => text = [';']
  | .number => text ≠ [] ∧ ∀ c ∈ text, c.isDigit = true
  | .name => Token.HasNameShape text

/-- The patterns that are a text written out. -/
def words : List Pattern :=
  Keyword.all.map keyword ++ [.truth true, .truth false, .separator]

/-- All patterns, the words before the others. -/
def all : List Pattern :=
  words ++ [.number, .name]

/-- The token that a pattern makes of a piece of text. A number that does not fit
    into a value makes none. -/
def token? (piece : List Char) : Pattern → Option Token
  | .keyword k => some (.keyword k)
  | .truth b => some (.literal (.bool b))
  | .separator => some .separator
  | .number =>
    if Decimal.value piece < Token.literalBound then
      some (.literal (.int (Int64.ofNat (Decimal.value piece))))
    else none
  | .name => some (.identifier (String.ofList piece))

instance decidableMatches (text : List Char) : (pattern : Pattern) → Decidable (pattern.Matches text)
  | .keyword k => inferInstanceAs (Decidable (text = k.word.toList))
  | .truth b => inferInstanceAs (Decidable (text = (Value.bool b).chars))
  | .separator => inferInstanceAs (Decidable (text = [';']))
  | .number => inferInstanceAs (Decidable (text ≠ [] ∧ ∀ c ∈ text, c.isDigit = true))
  | .name => decidable_of_iff (Token.isName text = true) (Token.isName_iff text)

theorem mem_all (pattern : Pattern) : pattern ∈ all := by
  rw [all, words, List.append_assoc]
  cases pattern with
  | keyword k => exact List.mem_append_left _ (List.mem_map_of_mem (Keyword.mem_all k))
  | truth b => cases b <;> exact List.mem_append_right _ (by decide)
  | separator | number | name => exact List.mem_append_right _ (by decide)

theorem not_matches_nil (pattern : Pattern) : ¬ pattern.Matches [] := by
  intro h
  have hall : ∀ other ∈ all, ¬ other.Matches [] := by decide
  exact hall pattern (mem_all pattern) h

/-- The first pattern that matches a piece is a word, if a word matches it. -/
theorem find?_mem_words (piece : List Char) (word found : Pattern) (hword : word ∈ words)
    (hmatches : word.Matches piece)
    (h : all.find? (fun pattern => pattern.Matches piece) = some found) : found ∈ words := by
  -- A word matches, and the words are asked first.
  have hsome : (words.find? fun pattern => pattern.Matches piece).isSome = true :=
    List.find?_isSome.mpr ⟨word, hword, decide_eq_true hmatches⟩
  rcases Option.isSome_iff_exists.mp hsome with ⟨first, hfirst⟩
  rw [all, List.find?_append, hfirst, Option.some_or, Option.some.injEq] at h
  rw [← h]
  exact List.mem_of_find?_eq_some hfirst

/-- What a pattern matches spells the token that is made of it, unless it looks like
    a name and is reserved. -/
theorem spells_of_matches (pattern : Pattern) (text : List Char) (h : pattern.Matches text)
    (hname : pattern = .name → String.ofList text ∉ Token.reserved) :
    Token.Spells text ((pattern.token? text).getD (.oversized (String.ofList text))) := by
  cases pattern with
  | keyword k =>
      rw [Matches] at h
      rw [h]
      exact .keyword k
  | truth b =>
      rw [Matches] at h
      rw [h]
      exact .truth b
  | separator =>
      rw [Matches] at h
      rw [h]
      exact .separator
  | number =>
      -- The two kinds of number are told apart by their value, in both readings.
      have hnumeral := (Token.isNumeral_iff text).mpr h
      refine Token.spells_of_ofNumeral? text _ ?_
      rw [Token.ofNumeral?, if_pos hnumeral, token?]
      split
      · rfl
      · rfl
  | name =>
      have hspells := Token.Spells.name (String.ofList text)
      rw [String.toList_ofList] at hspells
      exact hspells h (hname rfl)

theorem exists_matches_of_spells (text : List Char) (token : Token)
    (h : Token.Spells text token) : ∃ pattern : Pattern, pattern.Matches text := by
  cases h with
  | keyword k => exact ⟨.keyword k, rfl⟩
  | truth b => exact ⟨.truth b, rfl⟩
  | separator => exact ⟨.separator, rfl⟩
  | number _ n hnumeral _ => exact ⟨.number, (Token.isNumeral_iff text).mp hnumeral⟩
  | oversized digits hnumeral _ => exact ⟨.number, (Token.isNumeral_iff digits.toList).mp hnumeral⟩
  | name x hshape _ => exact ⟨.name, hshape⟩

/-- What is reserved is matched by a word as well. -/
theorem exists_word_of_reserved (text : List Char) (h : String.ofList text ∈ Token.reserved) :
    ∃ word ∈ words, word.Matches text := by
  rcases (Token.mem_reserved_iff _).mp h with ⟨k, hk⟩ | ⟨b, hb⟩
  · refine ⟨.keyword k, List.mem_append_left _ (List.mem_map_of_mem (Keyword.mem_all k)), ?_⟩
    rw [Matches, ← hk, String.toList_ofList]
  · refine ⟨.truth b, List.mem_append_right _ (by cases b <;> decide), ?_⟩
    rw [Matches, ← Value.toList_text, ← hb, String.toList_ofList]

end Pattern

/-- A lexeme is no token if no pattern matches it. -/
theorem Token.ofLexeme?_eq_none_iff (lexeme : List Char) :
    ofLexeme? lexeme = none ↔ ∀ pattern : Pattern, ¬ pattern.Matches lexeme := by
  constructor
  · intro h pattern hmatches
    -- A reserved name is matched by its word, which spells a token.
    have hspelled : ∃ token, Spells lexeme token := by
      by_cases hreserved : pattern = .name ∧ String.ofList lexeme ∈ reserved
      · rcases Pattern.exists_word_of_reserved lexeme hreserved.2 with ⟨word, hword, hmatches⟩
        refine ⟨_, word.spells_of_matches lexeme hmatches fun hname => ?_⟩
        rw [hname] at hword
        exact absurd hword (by decide)
      · exact ⟨_, pattern.spells_of_matches lexeme hmatches fun hname hmem =>
          hreserved ⟨hname, hmem⟩⟩
    rcases hspelled with ⟨token, htoken⟩
    rw [(ofLexeme?_eq_some_iff lexeme token).mpr htoken] at h
    exact absurd h (by simp only [reduceCtorEq, not_false_eq_true])
  · intro h
    cases hread : ofLexeme? lexeme with
    | none => rfl
    | some token =>
        have hspells := (ofLexeme?_eq_some_iff lexeme token).mp hread
        rcases Pattern.exists_matches_of_spells lexeme token hspells with ⟨pattern, hmatches⟩
        exact absurd hmatches (h pattern)

/-- How a token is written, class by class. -/
def Token.WrittenAs (lexeme : List Char) : Token → Prop
  | .keyword k => lexeme = k.word.toList
  | .literal (.bool b) => lexeme = (Value.bool b).chars
  | .literal (.int n) =>
    Decimal.isNumeral lexeme = true ∧ Decimal.value lexeme ≤ 2 ^ 63 - 1 ∧
      n.toInt = Decimal.value lexeme
  | .oversized digits =>
    Decimal.isNumeral lexeme = true ∧ 2 ^ 63 ≤ Decimal.value lexeme ∧ digits.toList = lexeme
  | .identifier x => HasNameShape lexeme ∧ x ∉ reserved ∧ x.toList = lexeme
  | .separator => lexeme = [';']

theorem Token.ofLexeme?_eq_some_iff_writtenAs (lexeme : List Char) (token : Token) :
    ofLexeme? lexeme = some token ↔ token.WrittenAs lexeme := by
  rw [ofLexeme?_eq_some_iff]
  constructor
  · intro h
    have hlexical := lexical_of_spells lexeme token h
    cases h with
    | keyword k => exact rfl
    | truth b => exact rfl
    | separator => exact rfl
    | oversized digits hnumeral hvalue => exact ⟨hnumeral, hvalue, rfl⟩
    | name x hshape hreserved => exact ⟨hshape, hreserved, rfl⟩
    | number _ n hnumeral hvalue =>
        -- The bound on the number is a bound on the value of its digits.
        have hbound := hlexical.2
        rw [hvalue] at hbound
        exact ⟨hnumeral, by omega, hvalue⟩
  · intro h
    -- Every class has one way to be written, which is the rule of the grammar for it.
    rcases token with k | (n | b) | x | _ | digits
    · rw [show lexeme = k.word.toList from h]
      exact .keyword k
    · exact .number lexeme n h.1 h.2.2
    · rw [show lexeme = (Value.bool b).chars from h]
      exact .truth b
    · rcases h with ⟨hshape, hreserved, rfl⟩
      exact .name x hshape hreserved
    · rw [show lexeme = [';'] from h]
      exact .separator
    · rcases h with ⟨hnumeral, hvalue, rfl⟩
      exact .oversized digits hnumeral hvalue

/-- Only numbers are spelled in more than one way. -/
theorem Token.exists_int_of_spells_of_ne (lexeme other : List Char) (token : Token)
    (h : Spells lexeme token) (hother : Spells other token) (hne : other ≠ lexeme) :
    ∃ n, token = .literal (.int n) := by
  -- A token of any other class keeps its spelling, so it would have been spelled alike.
  cases h with
  | number _ n _ _ => exact ⟨n, rfl⟩
  | oversized digits _ _ => exact absurd (eq_toList_of_spells_oversized other digits hother) hne
  | name x _ _ => exact absurd (eq_toList_of_spells_identifier other x hother) hne
  | keyword k =>
      cases hother with
      | keyword _ => exact absurd rfl hne
  | truth b =>
      cases hother with
      | truth _ => exact absurd rfl hne
  | separator =>
      cases hother with
      | separator => exact absurd rfl hne

/-- Lexemes that share a token are digit strings of one value, and they differ in
    their leading zeros. -/
theorem Token.numerals_of_same_token (lexeme other : List Char) (token : Token)
    (hne : other ≠ lexeme) (h : ofLexeme? lexeme = some token)
    (hother : ofLexeme? other = some token) :
    Decimal.isNumeral lexeme = true ∧ Decimal.isNumeral other = true ∧
    Decimal.value lexeme = Decimal.value other ∧ Decimal.value lexeme ≤ 2 ^ 63 - 1 ∧
    ∃ m n digits, lexeme = List.replicate m '0' ++ digits ∧
      other = List.replicate n '0' ++ digits := by
  rcases exists_int_of_spells_of_ne lexeme other token ((ofLexeme?_eq_some_iff _ _).mp h)
    ((ofLexeme?_eq_some_iff _ _).mp hother) hne with ⟨n, rfl⟩
  rcases (ofLexeme?_eq_some_iff_writtenAs lexeme _).mp h with ⟨hnumeral, hbound, hvalue⟩
  rcases (ofLexeme?_eq_some_iff_writtenAs other _).mp hother with ⟨hnumeral', _, hvalue'⟩
  -- Both spell the same number, so they have the same digits behind their zeros.
  have hsame : Decimal.value lexeme = Decimal.value other :=
    Int.ofNat_inj.mp (hvalue.symm.trans hvalue')
  refine ⟨hnumeral, hnumeral', hsame, hbound, ?_⟩
  rcases Decimal.exists_zeros_append_significant lexeme with ⟨zeros, hzeros⟩
  rcases Decimal.exists_zeros_append_significant other with ⟨zeros', hzeros'⟩
  refine ⟨zeros, zeros', Decimal.significant lexeme, hzeros, ?_⟩
  rw [Decimal.significant_eq_of_value_eq lexeme other ((isNumeral_iff lexeme).mp hnumeral).2
    ((isNumeral_iff other).mp hnumeral').2 hsame]
  exact hzeros'

/-! ### Scanners -/

/-- What a scanner finds at the start of a text: a pattern, and the piece of the text
    that it matches. -/
structure Found where
  pattern : Pattern
  piece : List Char
  deriving DecidableEq, Repr

/-- The rules of a scanner. What it finds is a match at the start of the text, there
    is no longer one, and if the piece is a word, it is not found as a name. -/
structure LongestMatch (scan : List Char → Option Found) : Prop where
  isMatch : ∀ text found, scan text = some found →
    found.piece <+: text ∧ found.pattern.Matches found.piece
  longest : ∀ text piece (pattern : Pattern), piece <+: text → pattern.Matches piece →
    ∃ found, scan text = some found ∧ piece.length ≤ found.piece.length
  outranks : ∀ text found, ∀ word ∈ Pattern.words, scan text = some found →
    word.Matches found.piece → found.pattern ≠ .name

namespace Scanner

/-- Classify a lexeme with one scan. What is found counts only if it is all of the
    lexeme, and a number that does not fit into a value is kept as it is written. -/
def classify (scan : List Char → Option Found) (lexeme : List Char) : Option Token :=
  match scan lexeme with
  | none => none
  | some found =>
    if found.piece.length = lexeme.length then
      some ((found.pattern.token? found.piece).getD (.oversized (String.ofList lexeme)))
    else none

/-- A scan that falls short of a lexeme, or finds nothing, has shown that no pattern
    matches the lexeme. -/
theorem not_matches_of_falls_short (scan : List Char → Option Found) (hscan : LongestMatch scan)
    (lexeme : List Char)
    (hshort : ∀ found, scan lexeme = some found → found.piece.length ≠ lexeme.length)
    (pattern : Pattern) : ¬ pattern.Matches lexeme := by
  intro hmatches
  rcases hscan.longest lexeme lexeme pattern List.prefix_rfl hmatches with ⟨found, hfound, hle⟩
  have hge := (hscan.isMatch lexeme found hfound).1.length_le
  exact hshort found hfound (by omega)

/-- One scan is enough to classify a lexeme. -/
theorem classify_eq_ofLexeme? (scan : List Char → Option Found) (hscan : LongestMatch scan)
    (lexeme : List Char) : classify scan lexeme = Token.ofLexeme? lexeme := by
  rw [classify]
  cases hfound : scan lexeme with
  | none =>
      refine ((Token.ofLexeme?_eq_none_iff lexeme).mpr ?_).symm
      refine not_matches_of_falls_short scan hscan lexeme fun found h => ?_
      rw [hfound] at h
      exact absurd h (by simp only [reduceCtorEq, not_false_eq_true])
  | some found =>
      rcases hscan.isMatch lexeme found hfound with ⟨hpiece, hmatches⟩
      by_cases hlength : found.piece.length = lexeme.length
      · have hwhole : found.piece = lexeme := hpiece.eq_of_length hlength
        simp only [if_pos hlength]
        rw [hwhole] at hmatches ⊢
        refine ((Token.ofLexeme?_eq_some_iff lexeme _).mpr ?_).symm
        refine found.pattern.spells_of_matches lexeme hmatches fun hname hreserved => ?_
        -- A reserved word would have been found as a word.
        rcases Pattern.exists_word_of_reserved lexeme hreserved with ⟨word, hword, hmatch⟩
        rw [← hwhole] at hmatch
        exact hscan.outranks lexeme found word hword hfound hmatch hname
      · simp only [if_neg hlength]
        refine ((Token.ofLexeme?_eq_none_iff lexeme).mpr ?_).symm
        refine not_matches_of_falls_short scan hscan lexeme fun other h => ?_
        rw [hfound, Option.some.injEq] at h
        rwa [← h]

/-- The longest match among the first `n` characters of a text. -/
def longestWithin? (text : List Char) : Nat → Option Found
  | 0 => none
  | n + 1 =>
    match Pattern.all.find? fun pattern => pattern.Matches (text.take (n + 1)) with
    | some pattern => some ⟨pattern, text.take (n + 1)⟩
    | none => longestWithin? text n

/-- The longest match at the start of a text, found by trying the longer pieces
    first. -/
def longest? (text : List Char) : Option Found :=
  longestWithin? text text.length

/-- What is found is a piece and the first pattern that matches it. -/
theorem find?_of_longestWithin? (text : List Char) (n : Nat) (found : Found)
    (h : longestWithin? text n = some found) :
    found.piece <+: text ∧
      Pattern.all.find? (fun pattern => pattern.Matches found.piece) = some found.pattern := by
  induction n with
  | zero => exact absurd h (by simp only [longestWithin?, reduceCtorEq, not_false_eq_true])
  | succ n ih =>
      rw [longestWithin?] at h
      -- The longest piece is tried first, and if nothing matches it, shorter ones are.
      split at h
      · rename_i pattern hpattern
        rw [← Option.some.inj h]
        exact ⟨List.take_prefix (n + 1) text, hpattern⟩
      · exact ih h

theorem exists_longestWithin? (text : List Char) (m n : Nat) (pattern : Pattern) (hle : m ≤ n)
    (h : pattern.Matches (text.take m)) :
    ∃ found, longestWithin? text n = some found ∧ (text.take m).length ≤ found.piece.length := by
  induction n with
  | zero =>
      rw [Nat.le_zero.mp hle, List.take_zero] at h
      exact absurd h pattern.not_matches_nil
  | succ n ih =>
      rw [longestWithin?]
      split
      · refine ⟨_, rfl, ?_⟩
        simp only [List.length_take]
        omega
      · rename_i hnone
        refine ih (Nat.le_of_lt_succ (Nat.lt_of_le_of_ne hle fun hm => ?_))
        -- The pattern would have been found with the piece of this length.
        have hnot := List.find?_eq_none.mp hnone pattern pattern.mem_all
        rw [hm] at h
        exact hnot (decide_eq_true h)

/-- The rules of a scanner can be followed. -/
theorem longestMatch_longest? : LongestMatch longest? where
  isMatch := by
    intro text found h
    rcases find?_of_longestWithin? text text.length found h with ⟨hpiece, hfind⟩
    have hmatches := List.find?_some hfind
    exact ⟨hpiece, of_decide_eq_true hmatches⟩
  longest := by
    intro text piece pattern hpiece hmatches
    rw [List.prefix_iff_eq_take.mp hpiece] at hmatches ⊢
    exact exists_longestWithin? text piece.length text.length pattern hpiece.length_le hmatches
  outranks := by
    intro text found word hword h hmatches hname
    have hfind := (find?_of_longestWithin? text text.length found h).2
    -- A word that matches the piece is found before the pattern for names.
    have hmem := Pattern.find?_mem_words found.piece word found.pattern hword hmatches hfind
    rw [hname] at hmem
    exact absurd hmem (by decide)

/-- The grammar of tokens. A scanner that finds the longest match, and words before
    names, classifies a lexeme by one scan as what it is as a whole, and what it
    is as a whole is a matter of its spelling alone: a reserved word, a digit
    string on one or the other side of the bound, a name that is not reserved, a
    semicolon, or nothing. Two lexemes that are the same token are digit strings of
    the same value. -/
theorem classify_grammar (scan : List Char → Option Found) (hscan : LongestMatch scan)
    (lexeme : List Char) :
    classify scan lexeme = Token.ofLexeme? lexeme ∧
    (∀ token, Token.ofLexeme? lexeme = some token ↔ token.WrittenAs lexeme) ∧
    (Token.ofLexeme? lexeme = none ↔ ∀ pattern : Pattern, ¬ pattern.Matches lexeme) ∧
    Token.ofLexeme? [] = none ∧
    (∀ found, scan lexeme = some found → found.piece ≠ lexeme →
      Token.ofLexeme? lexeme = none) ∧
    (∀ other token, other ≠ lexeme → Token.ofLexeme? lexeme = some token →
      Token.ofLexeme? other = some token →
      Decimal.isNumeral lexeme = true ∧ Decimal.isNumeral other = true ∧
      Decimal.value lexeme = Decimal.value other ∧ Decimal.value lexeme ≤ 2 ^ 63 - 1 ∧
      ∃ m n digits, lexeme = List.replicate m '0' ++ digits ∧
        other = List.replicate n '0' ++ digits) := by
  refine ⟨classify_eq_ofLexeme? scan hscan lexeme, Token.ofLexeme?_eq_some_iff_writtenAs lexeme,
    Token.ofLexeme?_eq_none_iff lexeme, Token.ofLexeme?_nil, fun found hfound hne => ?_,
    Token.numerals_of_same_token lexeme⟩
  refine (Token.ofLexeme?_eq_none_iff lexeme).mpr ?_
  -- The scanner gives the longest match, so a shorter piece leaves none for the lexeme.
  refine not_matches_of_falls_short scan hscan lexeme fun other hother hlength => ?_
  rw [hfound, Option.some.injEq] at hother
  rw [← hother] at hlength
  exact hne ((hscan.isMatch lexeme found hfound).1.eq_of_length hlength)

/-- Zeros in front of a digit do not make another token of it. -/
theorem numerals_of_leading_zeros :
    LongestMatch longest? ∧
    classify longest? ['0', '0', '7'] = some (.literal (.int 7)) ∧
    Token.ofLexeme? ['7'] = some (.literal (.int 7)) ∧
    ∃ m n digits, ['0', '0', '7'] = List.replicate m '0' ++ digits ∧
      ['7'] = List.replicate n '0' ++ digits := by
  have hlong : Token.ofLexeme? ['0', '0', '7'] = some (.literal (.int 7)) := by decide
  have hshort : Token.ofLexeme? ['7'] = some (.literal (.int 7)) := by decide
  have hgrammar := classify_grammar longest? longestMatch_longest? ['0', '0', '7']
  refine ⟨longestMatch_longest?, hgrammar.1.trans hlong, hshort, ?_⟩
  rcases hgrammar with ⟨_, _, _, _, _, hsame⟩
  exact (hsame ['7'] _ (by decide) hlong hshort).2.2.2.2

end Scanner

end PrefixScript
