import Mathlib.Algebra.Group.Int.Defs
import Mathlib.Algebra.Group.Nat.Defs
import PrefixScript.Token.Lexeme

/-!
# Spellings

Which lexemes spell which token, said without a reader.

A reader tries one class of tokens after the other. The relation here has one
rule for each class instead, and its rules do not know of each other: a name
has to say itself that it is not reserved, and a digit string which side of the
bound its value is on. That the reader finds exactly what the rules allow means
that the order of its attempts decides nothing else.

Only numbers have more than one spelling, since zeros in front of the digits do
not count. A number that is too large has only one, because it is kept as it is
written.

## Main definitions

* `Value.NonNegative`: A value that a literal can have.
* `HasNameShape`: The shape of a name.
* `reserved`: The words that have the shape of a name and are none.
* `Spells`: A lexeme spells a token.
* `Lexical`: A token can be spelled.
* `spelling`: The usual spelling of a token.

## Theorems

* `isName_iff`: The shape of a name is what the reader looks for.
* `mem_reserved_iff`: The reserved words are the keywords and the truth values.
* `ofLexeme?_eq_some_iff`: A lexeme is read as the token it spells.
* `spells_spelling`, `lexical_of_spells`: What is spelled can be spelled, and the
  other way round.
* `eq_toList_of_spells_identifier`, `eq_toList_of_spells_oversized`: Names and
  numbers that are too large are kept as they are written.
* `char_of_spells`: Tokens are spelled with letters, digits, underscores and
  semicolons.
-/

namespace PrefixScript

/-- A truth value, or an integer that is not negative. -/
def Value.NonNegative : Value → Prop
  | .int n => 0 ≤ n.toInt ∧ n.toInt ≤ 2 ^ 63 - 1
  | .bool _ => True

/-- A number that is not negative is written with digits only. -/
theorem Value.exists_digits_of_nonNegative (n : Int64) (h : 0 ≤ n.toInt) :
    ∃ k : Nat, n.toInt = k ∧ (Value.int n).chars = Decimal.digits k := by
  rcases Int.eq_ofNat_of_zero_le h with ⟨k, hk⟩
  refine ⟨k, hk, ?_⟩
  rw [chars, hk]
  rfl

namespace Token

/-- The shape of a name: a letter, then letters, digits and underscores, with one
    underscore in front or without it. -/
inductive HasNameShape : List Char → Prop where
  | bare (letter : Char) (rest : List Char) :
      letter.isAlpha = true → (∀ c ∈ rest, c.isAlphanum = true ∨ c = '_') →
      HasNameShape (letter :: rest)
  | underscored (letter : Char) (rest : List Char) :
      letter.isAlpha = true → (∀ c ∈ rest, c.isAlphanum = true ∨ c = '_') →
      HasNameShape ('_' :: letter :: rest)

/-- The words that have the shape of a name but are no name. -/
def reserved : List String :=
  ["let", "print", "println", "eq", "add", "sub", "mul", "div", "true", "false"]

/-- A lexeme spells a token. -/
inductive Spells : List Char → Token → Prop where
  | keyword (k : Keyword) : Spells k.word.toList (.keyword k)
  | truth (b : Bool) : Spells (Value.bool b).chars (.literal (.bool b))
  /-- Any digits spell their value, as long as it is an integer value. -/
  | number (digits : List Char) (n : Int64) :
      Decimal.isNumeral digits = true → n.toInt = Decimal.value digits →
      Spells digits (.literal (.int n))
  | oversized (digits : String) :
      Decimal.isNumeral digits.toList = true → 2 ^ 63 ≤ Decimal.value digits.toList →
      Spells digits.toList (.oversized digits)
  | name (x : String) : HasNameShape x.toList → x ∉ reserved → Spells x.toList (.identifier x)
  | separator : Spells [';'] .separator

/-- Whether a token can be spelled: a number must not be negative, a name must have
    the shape of one and not be reserved, and an oversized number must consist of
    digits and be as large as it says. -/
def Lexical : Token → Prop
  | .keyword _ => True
  | .literal v => v.NonNegative
  | .identifier x => HasNameShape x.toList ∧ x ∉ reserved
  | .separator => True
  | .oversized digits =>
    (∀ c ∈ digits.toList, c.isDigit = true) ∧ 2 ^ 63 ≤ Decimal.value digits.toList

/-- The usual spelling of a token, without unnecessary zeros. -/
def spelling : Token → List Char
  | .keyword k => k.word.toList
  | .literal v => v.chars
  | .identifier x => x.toList
  | .separator => [';']
  | .oversized digits => digits.toList

theorem isName_iff (lexeme : List Char) : isName lexeme = true ↔ HasNameShape lexeme := by
  have hrest : ∀ rest : List Char, rest.all isName.isNamePart = true ↔
      ∀ c ∈ rest, c.isAlphanum = true ∨ c = '_' := by
    intro rest
    simp only [List.all_eq_true, isName.isNamePart, Bool.or_eq_true, beq_iff_eq]
  constructor
  · intro h
    unfold isName at h
    split at h
    · rename_i letter rest
      rw [Bool.and_eq_true, hrest] at h
      exact .underscored letter rest h.1 h.2
    · rename_i letter rest _
      rw [Bool.and_eq_true, hrest] at h
      exact .bare letter rest h.1 h.2
    · exact absurd h Bool.false_ne_true
  · intro h
    cases h with
    | underscored letter rest hletter hall =>
        rw [isName, Bool.and_eq_true, hrest]
        exact ⟨hletter, hall⟩
    | bare letter rest hletter hall =>
        unfold isName
        split
        · -- An underscore is no letter, so this is no name with an underscore.
          rename_i hcons
          rw [(List.cons.inj hcons).1] at hletter
          exact absurd hletter (by decide)
        · rename_i hcons
          rw [Bool.and_eq_true, hrest, ← (List.cons.inj hcons).1, ← (List.cons.inj hcons).2]
          exact ⟨hletter, hall⟩
        · rename_i hnil
          exact absurd hnil (List.cons_ne_nil letter rest)

theorem mem_reserved_iff (x : String) :
    x ∈ reserved ↔ (∃ k : Keyword, x = k.word) ∨ ∃ b, x = (Value.bool b).text := by
  constructor
  · intro h
    simp only [reserved, List.mem_cons, List.not_mem_nil, or_false] at h
    rcases h with h | h | h | h | h | h | h | h | h | h
    · exact Or.inl ⟨.bind, h⟩
    · exact Or.inl ⟨.print, h⟩
    · exact Or.inl ⟨.println, h⟩
    · exact Or.inl ⟨.operator .eq, h⟩
    · exact Or.inl ⟨.operator .add, h⟩
    · exact Or.inl ⟨.operator .sub, h⟩
    · exact Or.inl ⟨.operator .mul, h⟩
    · exact Or.inl ⟨.operator .div, h⟩
    · exact Or.inr ⟨true, h⟩
    · exact Or.inr ⟨false, h⟩
  · rintro (⟨k, rfl⟩ | ⟨b, rfl⟩)
    · cases k with
      | operator op => cases op <;> decide
      | bind | print | println => decide
    · cases b <;> decide

/-! ### Reading a lexeme -/

theorem ofWord?_cases (lexeme : List Char) (token : Token) (h : ofWord? lexeme = some token) :
    (∃ k : Keyword, lexeme = k.word.toList ∧ token = .keyword k) ∨
    ∃ b, lexeme = (Value.bool b).chars ∧ token = .literal (.bool b) := by
  unfold ofWord? at h
  split at h
  · rename_i k hk
    exact Or.inl ⟨k, (Keyword.ofWord?_eq_some_iff lexeme k).mp hk, (Option.some.inj h).symm⟩
  · by_cases htrue : lexeme = (Value.bool true).chars
    · rw [if_pos htrue] at h
      exact Or.inr ⟨true, htrue, (Option.some.inj h).symm⟩
    · by_cases hfalse : lexeme = (Value.bool false).chars
      · rw [if_neg htrue, if_pos hfalse] at h
        exact Or.inr ⟨false, hfalse, (Option.some.inj h).symm⟩
      · rw [if_neg htrue, if_neg hfalse] at h
        exact absurd h (by simp only [reduceCtorEq, not_false_eq_true])

theorem ofWord?_eq_none_iff (x : String) : ofWord? x.toList = none ↔ x ∉ reserved := by
  rw [mem_reserved_iff]
  constructor
  · rintro h (⟨k, rfl⟩ | ⟨b, rfl⟩)
    · rw [ofWord?, Keyword.ofWord?_word] at h
      exact absurd h (by simp only [reduceCtorEq, not_false_eq_true])
    · cases b <;> exact absurd h (by decide)
  · intro h
    cases hword : ofWord? x.toList with
    | none => rfl
    | some token =>
        -- What is read as a word is the word of a keyword or of a truth value.
        refine absurd ?_ h
        rcases ofWord?_cases x.toList token hword with ⟨k, hk, _⟩ | ⟨b, hb, _⟩
        · exact Or.inl ⟨k, String.toList_inj.mp hk⟩
        · exact Or.inr ⟨b, String.toList_inj.mp (hb.trans (Value.bool b).toList_text.symm)⟩

/-- No reserved word is a digit string. -/
theorem ofWord?_eq_none_of_isNumeral (lexeme : List Char)
    (h : Decimal.isNumeral lexeme = true) : ofWord? lexeme = none := by
  cases hword : ofWord? lexeme with
  | none => rfl
  | some token =>
      -- No word is made of digits.
      rcases ofWord?_cases lexeme token hword with ⟨k, rfl, _⟩ | ⟨b, rfl, _⟩
      · cases k with
        | operator op => cases op <;> exact absurd h (by decide)
        | bind | print | println => exact absurd h (by decide)
      · cases b <;> exact absurd h (by decide)

theorem isNumeral_eq_false_of_hasNameShape (lexeme : List Char) (h : HasNameShape lexeme) :
    Decimal.isNumeral lexeme = false := by
  -- The ranges of letters and digits do not meet.
  have hfirst : ∀ c : Char, c.isAlpha = true → c.isDigit = false := by
    intro c hc
    delta Char.isAlpha Char.isUpper Char.isLower at hc
    delta Char.isDigit
    simp only [Bool.or_eq_true, Bool.and_eq_true, decide_eq_true_eq, UInt32.le_iff_toNat_le,
      ge_iff_le, UInt32.reduceToNat, Char.reduceVal] at hc
    simp only [Bool.and_eq_false_iff, decide_eq_false_iff_not, UInt32.le_iff_toNat_le,
      ge_iff_le, UInt32.reduceToNat, Char.reduceVal]
    omega
  cases h with
  | bare letter rest hletter _ =>
      simp only [Decimal.isNumeral, List.all_cons, hfirst letter hletter, Bool.false_and,
        Bool.and_false]
  | underscored letter rest _ _ =>
      simp only [Decimal.isNumeral, List.all_cons, show ('_' : Char).isDigit = false from rfl,
        Bool.false_and, Bool.and_false]

theorem spells_of_ofNumeral? (lexeme : List Char) (token : Token)
    (h : ofNumeral? lexeme = some token) : Spells lexeme token := by
  unfold ofNumeral? at h
  by_cases hnumeral : Decimal.isNumeral lexeme = true
  · rw [if_pos hnumeral] at h
    -- The bound decides whether the digits are a number or too large for one.
    by_cases hbound : Decimal.value lexeme < literalBound
    · rw [if_pos hbound, Option.some.injEq] at h
      rw [← h]
      exact .number lexeme _ hnumeral (Int64.toInt_ofNat_of_lt hbound)
    · rw [if_neg hbound, Option.some.injEq] at h
      have hoversized := Spells.oversized (String.ofList lexeme)
      rw [String.toList_ofList] at hoversized
      rw [← h]
      exact hoversized hnumeral (Nat.not_lt.mp hbound)
  · rw [if_neg hnumeral] at h
    exact absurd h (by simp only [reduceCtorEq, not_false_eq_true])

theorem spells_of_ofName? (lexeme : List Char) (token : Token) (hword : ofWord? lexeme = none)
    (h : ofName? lexeme = some token) : Spells lexeme token := by
  unfold ofName? at h
  by_cases hshape : isName lexeme = true
  · rw [if_pos hshape, Option.some.injEq] at h
    have hspells := Spells.name (String.ofList lexeme)
    -- What is not read as a word is not reserved.
    have hreserved := (ofWord?_eq_none_iff (String.ofList lexeme)).mp
    rw [String.toList_ofList] at hspells hreserved
    rw [← h]
    exact hspells ((isName_iff lexeme).mp hshape) (hreserved hword)
  · rw [if_neg hshape] at h
    exact absurd h (by simp only [reduceCtorEq, not_false_eq_true])

/-- Behind the separator the classes are tried one after the other. -/
theorem ofLexeme?_eq_or (lexeme : List Char) (h : lexeme ≠ [';']) :
    ofLexeme? lexeme = (ofWord? lexeme).or ((ofNumeral? lexeme).or (ofName? lexeme)) := by
  rw [ofLexeme?, if_neg h]
  cases ofWord? lexeme with
  | some word => rfl
  | none => cases ofNumeral? lexeme <;> rfl

theorem spells_of_ofLexeme? (lexeme : List Char) (token : Token)
    (h : ofLexeme? lexeme = some token) : Spells lexeme token := by
  by_cases hseparator : lexeme = [';']
  · rw [ofLexeme?, if_pos hseparator, Option.some.injEq] at h
    rw [hseparator, ← h]
    exact .separator
  · rw [ofLexeme?_eq_or lexeme hseparator, Option.or_eq_some_iff, Option.or_eq_some_iff] at h
    rcases h with hword | ⟨hword, hnumeral | ⟨_, hname⟩⟩
    · rcases ofWord?_cases lexeme token hword with ⟨k, rfl, rfl⟩ | ⟨b, rfl, rfl⟩
      · exact .keyword k
      · exact .truth b
    · exact spells_of_ofNumeral? lexeme token hnumeral
    · -- A reserved word would have been found before.
      exact spells_of_ofName? lexeme token hword hname

theorem ofLexeme?_of_isNumeral (lexeme : List Char) (h : Decimal.isNumeral lexeme = true) :
    ofLexeme? lexeme = ofNumeral? lexeme := by
  -- Neither the separator nor a word is made of digits, so the numeral gets its turn.
  have hseparator : lexeme ≠ [';'] := by
    intro hlexeme
    rw [hlexeme] at h
    exact absurd h (by decide)
  rw [ofLexeme?_eq_or lexeme hseparator, ofWord?_eq_none_of_isNumeral lexeme h, Option.none_or,
    ofNumeral?, if_pos h]
  split
  · rfl
  · rfl

/-- A lexeme is read as the token it spells, and as none if it spells none. -/
theorem ofLexeme?_eq_some_iff (lexeme : List Char) (token : Token) :
    ofLexeme? lexeme = some token ↔ Spells lexeme token := by
  refine ⟨spells_of_ofLexeme? lexeme token, fun h => ?_⟩
  cases h with
  | keyword k => exact ofLexeme?_word k
  | truth b => cases b <;> decide
  | separator => rfl
  | number _ n hnumeral hvalue =>
      have hbound : Decimal.value lexeme < literalBound := by
        have hlt := n.toInt_lt
        rw [hvalue] at hlt
        exact Int.ofNat_lt.mp hlt
      rw [ofLexeme?_of_isNumeral lexeme hnumeral, ofNumeral?, if_pos hnumeral, if_pos hbound,
        Option.some.injEq, literal.injEq, Value.int.injEq, ← Int64.toInt_inj, hvalue]
      exact Int64.toInt_ofNat_of_lt hbound
  | oversized digits hnumeral hvalue =>
      rw [ofLexeme?_of_isNumeral digits.toList hnumeral, ofNumeral?, if_pos hnumeral,
        if_neg (show ¬ _ < literalBound from Nat.not_lt.mpr hvalue), String.ofList_toList]
  | name x hshape hreserved =>
      have hseparator : x.toList ≠ [';'] := by
        intro hx
        rw [hx, ← isName_iff] at hshape
        exact absurd hshape (by decide)
      have hnumeral : ofNumeral? x.toList = none := by
        rw [ofNumeral?, isNumeral_eq_false_of_hasNameShape x.toList hshape]
        exact if_neg Bool.false_ne_true
      rw [ofLexeme?_eq_or x.toList hseparator, (ofWord?_eq_none_iff x).mpr hreserved, hnumeral,
        Option.none_or, Option.none_or, ofName?, if_pos ((isName_iff _).mpr hshape),
        String.ofList_toList]

/-! ### What can be spelled -/

theorem isNumeral_iff (text : List Char) :
    Decimal.isNumeral text = true ↔ text ≠ [] ∧ ∀ c ∈ text, c.isDigit = true := by
  rw [Decimal.isNumeral, Bool.and_eq_true, Bool.not_eq_true', List.isEmpty_eq_false_iff,
    List.all_eq_true]

/-- The usual spelling of a token is a spelling of it, if it has one at all. -/
theorem spells_spelling (token : Token) (h : token.Lexical) : Spells token.spelling token := by
  cases token with
  | keyword k => exact .keyword k
  | separator => exact .separator
  | identifier x => exact .name x h.1 h.2
  | oversized digits =>
      refine .oversized digits ((isNumeral_iff digits.toList).mpr ⟨?_, h.1⟩) h.2
      -- Without digits the value would be zero.
      intro hnil
      rw [Lexical, hnil] at h
      exact absurd h.2 (by decide)
  | literal v =>
      cases v with
      | bool b => exact .truth b
      | int n =>
          rcases Value.exists_digits_of_nonNegative n h.1 with ⟨k, hk, hchars⟩
          rw [spelling, hchars]
          refine .number _ n (Decimal.isNumeral_digits k) ?_
          rw [Decimal.value_digits, hk]

theorem lexical_of_spells (lexeme : List Char) (token : Token) (h : Spells lexeme token) :
    token.Lexical := by
  cases h with
  | keyword _ | truth _ | separator => exact trivial
  | number _ n hnumeral hvalue =>
      -- The value of digits is not negative, and a word is bounded by its size.
      have hlt := n.toInt_lt
      refine ⟨?_, ?_⟩
      · rw [hvalue]
        exact Int.natCast_nonneg _
      · omega
  | oversized digits hnumeral hvalue =>
      exact ⟨((isNumeral_iff digits.toList).mp hnumeral).2, hvalue⟩
  | name x hshape hreserved => exact ⟨hshape, hreserved⟩

/-- A name is kept as it is written. -/
theorem eq_toList_of_spells_identifier (lexeme : List Char) (x : String)
    (h : Spells lexeme (.identifier x)) : lexeme = x.toList := by
  cases h with
  | name _ _ _ => rfl

/-- So is a number that is too large. -/
theorem eq_toList_of_spells_oversized (lexeme : List Char) (digits : String)
    (h : Spells lexeme (.oversized digits)) : lexeme = digits.toList := by
  cases h with
  | oversized _ _ _ => rfl

/-- All that a token is spelled with. -/
theorem char_of_spells (lexeme : List Char) (token : Token) (h : Spells lexeme token) :
    ∀ c ∈ lexeme, c.isAlphanum = true ∨ c = '_' ∨ c = ';' := by
  have hdigits : ∀ text, Decimal.isNumeral text = true → ∀ c ∈ text, c.isAlphanum = true := by
    intro text htext c hc
    rw [Char.isAlphanum, ((isNumeral_iff text).mp htext).2 c hc, Bool.or_true]
  intro c hc
  -- Words and digits are alphanumeric; only names have underscores, and only the
  -- separator is a semicolon.
  cases h with
  | keyword k =>
      have hall : k.word.toList.all Char.isAlphanum = true := by
        cases k with
        | operator op => cases op <;> decide
        | bind | print | println => decide
      exact Or.inl (List.all_eq_true.mp hall c hc)
  | truth b =>
      have hall : (Value.bool b).chars.all Char.isAlphanum = true := by
        cases b <;> decide
      exact Or.inl (List.all_eq_true.mp hall c hc)
  | number _ n hnumeral _ => exact Or.inl (hdigits lexeme hnumeral c hc)
  | oversized digits hnumeral _ => exact Or.inl (hdigits digits.toList hnumeral c hc)
  | separator => exact Or.inr (Or.inr (List.mem_singleton.mp hc))
  | name x hshape _ =>
      have hletter : ∀ letter : Char, letter.isAlpha = true → letter.isAlphanum = true := by
        intro letter h
        rw [Char.isAlphanum, h, Bool.true_or]
      rw [← or_assoc]
      refine Or.inl ?_
      generalize x.toList = name at hshape hc
      -- The shape tells of a first letter, of an underscore in front of it, and of the rest.
      cases hshape with
      | bare letter rest hfirst hrest =>
          rcases List.mem_cons.mp hc with rfl | hc
          · exact Or.inl (hletter c hfirst)
          · exact hrest c hc
      | underscored letter rest hfirst hrest =>
          rcases List.mem_cons.mp hc with rfl | hc
          · exact Or.inr rfl
          · rcases List.mem_cons.mp hc with rfl | hc
            · exact Or.inl (hletter c hfirst)
            · exact hrest c hc

theorem not_nil_of_spells (lexeme : List Char) (token : Token) (h : Spells lexeme token) :
    lexeme ≠ [] := by
  rintro rfl
  rw [← ofLexeme?_eq_some_iff, ofLexeme?_nil] at h
  exact absurd h (by simp only [reduceCtorEq, not_false_eq_true])

end Token

end PrefixScript
