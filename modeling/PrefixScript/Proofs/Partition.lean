import PrefixScript.Statement

/-!
# The Partition into Statements

Where the tokens go when they are cut into statements.

Cutting loses nothing. The statements, one after the other, are the tokens up to
and with the last separator, and the tokens behind it are the unclosed ones,
which are in no statement but still in the text. A statement has one separator,
and it comes last.

The unclosed tokens are also all that a cut depends on. When more tokens follow,
the statements found so far stay as they are, and the unclosed tokens join what
follows. So tokens can be cut into statements piece by piece.

## Main definitions

* `unclosed`: The tokens behind the last separator.

## Theorems

* `ofTokens_cons_cases`: All that a token can do to the statements behind it.
* `ofTokens_append`: More tokens lead to more statements.
* `flatMap_tokens_append_unclosed`: The statements and the unclosed tokens are all
  the tokens.
* `exists_closing_of_mem_ofTokens`: A statement ends in its only separator.
* `sublist_of_mem_ofTokens`: A statement has its tokens in the order of the text.
* `exists_split_of_ofTokens`: The place of a token of a statement among all tokens.
* `ofTokens_append_closing`: A separator closes the first statement.
* `ofTokens_flatMap_tokens`: Statements that end in their only separators are found
  again among their tokens.
-/

namespace PrefixScript

namespace Statement

/-- The tokens behind the last separator, or all of them if there is none. -/
def unclosed : List (Located Token) → List (Located Token)
  | [] => []
  | token :: rest =>
    if token.item = .separator ∨ ∃ later ∈ rest, later.item = .separator then unclosed rest
    else token :: rest

theorem ofTokens_ne_nil_iff (tokens : List (Located Token)) :
    ofTokens tokens ≠ [] ↔ ∃ token ∈ tokens, token.item = .separator := by
  induction tokens with
  | nil => simp only [ofTokens_nil, ne_eq, not_true_eq_false, List.not_mem_nil, false_and,
      exists_false]
  | cons token rest ih =>
      simp only [List.mem_cons, or_and_right, exists_or, exists_eq_left, ← ih]
      rw [ofTokens_cons, prepend]
      -- A separator makes a statement; any other token joins one, which has to be there.
      by_cases hseparator : token.item = .separator
      · rw [if_pos hseparator]
        simp only [ne_eq, reduceCtorEq, not_false_eq_true, hseparator, true_or]
      · rw [if_neg hseparator, ne_eq, List.modifyHead_eq_nil_iff]
        simp only [ne_eq, hseparator, false_or]

/-- All that a token can do to the statements behind it: it is one of its own, it
    joins the first of them, or there is none to join. -/
theorem ofTokens_cons_cases (token : Located Token) (rest : List (Located Token)) :
    (token.item = .separator ∧ ofTokens (token :: rest) = ⟨[token]⟩ :: ofTokens rest ∧
      unclosed (token :: rest) = unclosed rest) ∨
    (∃ first others, token.item ≠ .separator ∧ ofTokens rest = first :: others ∧
      ofTokens (token :: rest) = ⟨token :: first.tokens⟩ :: others ∧
      unclosed (token :: rest) = unclosed rest) ∨
    (ofTokens (token :: rest) = [] ∧ unclosed (token :: rest) = token :: rest) := by
  by_cases hseparator : token.item = .separator
  · refine Or.inl ⟨hseparator, ?_, if_pos (Or.inl hseparator)⟩
    rw [ofTokens_cons, prepend, if_pos hseparator]
  · have hjoin := ofTokens_cons_of_ne_separator token rest hseparator
    cases hrest : ofTokens rest with
    | cons first others =>
        -- There is a statement to join, so a separator follows.
        have hclosed : ∃ later ∈ rest, later.item = .separator :=
          (ofTokens_ne_nil_iff rest).mp (by rw [hrest]; exact List.cons_ne_nil first others)
        rw [hrest, List.modifyHead_cons] at hjoin
        exact Or.inr (Or.inl ⟨first, others, hseparator, rfl, hjoin, if_pos (Or.inr hclosed)⟩)
    | nil =>
        have hopen : ¬ ∃ later ∈ rest, later.item = .separator := by
          rw [← ofTokens_ne_nil_iff, hrest]
          exact fun hne => hne rfl
        rw [hrest, List.modifyHead_nil] at hjoin
        exact Or.inr (Or.inr ⟨hjoin, if_neg (not_or.mpr ⟨hseparator, hopen⟩)⟩)

/-- More tokens lead to more statements: those that were found stay, and the
    unclosed tokens join what follows. -/
theorem ofTokens_append (before after : List (Located Token)) :
    ofTokens (before ++ after) = ofTokens before ++ ofTokens (unclosed before ++ after) := by
  induction before with
  | nil => rfl
  | cons token rest ih =>
      rcases ofTokens_cons_cases token rest with ⟨hseparator, hcons, hunclosed⟩ |
        ⟨first, others, hseparator, hrest, hcons, hunclosed⟩ | ⟨hcons, hunclosed⟩
      · rw [List.cons_append, ofTokens_cons, prepend, if_pos hseparator, ih, hcons, hunclosed,
          List.cons_append]
      · rw [List.cons_append, ofTokens_cons_of_ne_separator token _ hseparator, ih, hcons,
          hunclosed, hrest, List.cons_append, List.cons_append, List.modifyHead_cons]
      · -- Nothing is closed yet, so all the tokens join what follows.
        rw [hcons, hunclosed, List.nil_append]

/-- The statements and the unclosed tokens are all the tokens, in order. -/
theorem flatMap_tokens_append_unclosed (tokens : List (Located Token)) :
    (ofTokens tokens).flatMap Statement.tokens ++ unclosed tokens = tokens := by
  induction tokens with
  | nil => rfl
  | cons token rest ih =>
      rcases ofTokens_cons_cases token rest with ⟨_, hcons, hunclosed⟩ |
        ⟨first, others, _, hrest, hcons, hunclosed⟩ | ⟨hcons, hunclosed⟩
      · rw [hcons, hunclosed, List.flatMap_cons, List.append_assoc, ih]
        rfl
      · rw [hrest, List.flatMap_cons, List.append_assoc] at ih
        rw [hcons, hunclosed, List.flatMap_cons, List.append_assoc, List.cons_append, ih]
      · rw [hcons, hunclosed]
        rfl

/-- A statement ends in its only separator. -/
theorem exists_closing_of_mem_ofTokens (tokens : List (Located Token)) (statement : Statement)
    (h : statement ∈ ofTokens tokens) :
    ∃ inner closing, statement.tokens = inner ++ [closing] ∧ closing.item = .separator ∧
      ∀ token ∈ inner, token.item ≠ .separator := by
  induction tokens generalizing statement with
  | nil => exact absurd h List.not_mem_nil
  | cons token rest ih =>
      rcases ofTokens_cons_cases token rest with ⟨hseparator, hcons, _⟩ |
        ⟨first, others, hseparator, hrest, hcons, _⟩ | ⟨hcons, _⟩
      · rw [hcons] at h
        rcases List.mem_cons.mp h with rfl | h
        · exact ⟨[], token, rfl, hseparator, fun _ hmem => absurd hmem List.not_mem_nil⟩
        · exact ih statement h
      · rw [hrest] at ih
        rw [hcons] at h
        rcases List.mem_cons.mp h with rfl | h
        · -- The first statement keeps its end; the token goes in front of what is inside.
          rcases ih first List.mem_cons_self with ⟨inner, closing, hfirst, hclosing, hinner⟩
          refine ⟨token :: inner, closing, ?_, hclosing,
            List.forall_mem_cons.mpr ⟨hseparator, hinner⟩⟩
          rw [hfirst, List.cons_append]
        · exact ih statement (List.mem_cons_of_mem first h)
      · rw [hcons] at h
        exact absurd h List.not_mem_nil

theorem sublist_of_mem_ofTokens (tokens : List (Located Token)) (statement : Statement)
    (h : statement ∈ ofTokens tokens) : statement.tokens.Sublist tokens := by
  rcases List.append_of_mem h with ⟨before, after, hsplit⟩
  -- All tokens are those of the statements in order, with what is left over behind.
  have hall := flatMap_tokens_append_unclosed tokens
  rw [hsplit, List.flatMap_append, List.flatMap_cons] at hall
  rw [← hall, List.append_assoc, List.append_assoc]
  exact (List.sublist_append_left _ _).trans (List.sublist_append_right _ _)

/-- The place of a token of a statement among all tokens. -/
theorem exists_split_of_ofTokens (tokens : List (Located Token)) (before after : List Statement)
    (statement : Statement) (sooner later : List (Located Token)) (token : Located Token)
    (hsplit : ofTokens tokens = before ++ statement :: after)
    (htokens : statement.tokens = sooner ++ token :: later) :
    ∃ behind, tokens = before.flatMap Statement.tokens ++ sooner ++ token :: behind := by
  refine ⟨later ++ after.flatMap Statement.tokens ++ unclosed tokens, ?_⟩
  have hall := flatMap_tokens_append_unclosed tokens
  rw [hsplit, List.flatMap_append, List.flatMap_cons, htokens] at hall
  simp only [List.append_assoc, List.cons_append] at hall ⊢
  exact hall.symm

/-- A separator closes the first statement, whatever follows it. -/
theorem ofTokens_append_closing (inner rest : List (Located Token)) (closing : Located Token)
    (hinner : ∀ token ∈ inner, token.item ≠ .separator) (hclosing : closing.item = .separator) :
    ofTokens (inner ++ closing :: rest) = ⟨inner ++ [closing]⟩ :: ofTokens rest := by
  induction inner with
  | nil =>
      rw [List.nil_append, List.nil_append, ofTokens_cons, prepend, if_pos hclosing]
  -- The cut is made from the right, so the statement is there before the token joins it.
  | cons token others ih =>
      rcases List.forall_mem_cons.mp hinner with ⟨htoken, hothers⟩
      rw [List.cons_append, ofTokens_cons_of_ne_separator token _ htoken, ih hothers,
        List.modifyHead_cons, List.cons_append]

/-- Statements that end in their only separators are found again among their tokens. -/
theorem ofTokens_flatMap_tokens (statements : List Statement)
    (h : ∀ statement ∈ statements, ∃ inner closing, statement.tokens = inner ++ [closing] ∧
      closing.item = .separator ∧ ∀ token ∈ inner, token.item ≠ .separator) :
    ofTokens (statements.flatMap Statement.tokens) = statements := by
  induction statements with
  | nil => rfl
  | cons statement rest ih =>
      rcases List.forall_mem_cons.mp h with ⟨⟨inner, closing, htokens, hclosing, hinner⟩, hrest⟩
      rw [List.flatMap_cons, htokens, List.append_assoc, List.singleton_append,
        ofTokens_append_closing inner _ closing hinner hclosing, ih hrest, ← htokens]

end Statement

end PrefixScript
