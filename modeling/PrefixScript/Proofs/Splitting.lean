import PrefixScript.Proofs.Chunks

/-!
# Splitting

The one way to cut tokens into statements.

A cut of a sequence of tokens is a list of statements and a rest, which make up
the sequence when they are put one after the other. The statements have to be
closed, that is, to end in a separator and to have no other, and there must be
no separator in the rest. It is not clear from this that there is a cut at all,
nor that there is only one, and both are true of every sequence: the statements
that are found are the only ones there could be.

Statements are found from the right here, and a reader of tokens has to find
them from the left. It holds the tokens since the last separator in hand, and
when a separator comes it closes a statement and is left with empty hands. What
it has closed and what it has in hand are a cut of the tokens read so far, and
one more token keeps it so. At the end the tokens in hand are dropped, so the
statements come out the same.

## Main definitions

* `Statement.Closed`: A statement has one separator, and it comes last.
* `Statement.IsCut`: A sequence of tokens consists of closed statements and a rest.
* `Splitter`: A reader of tokens from left to right.
* `Splitter.read`: Reading one more token.

## Theorems

* `isCut_ofTokens`: The statements of a sequence and its unclosed tokens are a cut.
* `eq_of_isCut`: There is no other.
* `length_of_isCut`: There is a statement for each separator.
* `isCut_read`, `isCut_foldl_read`: What a reader holds is a cut, token by token.
* `isCut_iff_ofTokens`: There is one way to cut tokens into statements.
-/

namespace PrefixScript

namespace Statement

/-- The statement has one separator, and it is the last token. -/
def Closed (statement : Statement) : Prop :=
  ∃ inner closing, statement.tokens = inner ++ [closing] ∧ closing.item = .separator ∧
    ∀ token ∈ inner, token.item ≠ .separator

/-- The tokens are those of closed statements, one after the other, and then a rest
    without separators. -/
structure IsCut (tokens : List (Located Token)) (statements : List Statement)
    (rest : List (Located Token)) : Prop where
  whole : statements.flatMap Statement.tokens ++ rest = tokens
  closed : ∀ statement ∈ statements, statement.Closed
  unclosed : ∀ token ∈ rest, token.item ≠ .separator

theorem not_separator_of_mem_unclosed (tokens : List (Located Token)) (token : Located Token)
    (h : token ∈ unclosed tokens) : token.item ≠ .separator := by
  rw [unclosed_eq_rtakeWhile] at h
  have hne := List.mem_rtakeWhile_imp h
  rwa [decide_eq_true_eq] at hne

theorem isCut_ofTokens (tokens : List (Located Token)) :
    IsCut tokens (ofTokens tokens) (unclosed tokens) :=
  ⟨flatMap_tokens_append_unclosed tokens, exists_closing_of_mem_ofTokens tokens,
    not_separator_of_mem_unclosed tokens⟩

/-- Closed statements are found again, and so is the rest behind them. -/
theorem eq_of_isCut (tokens : List (Located Token)) (statements : List Statement)
    (rest : List (Located Token)) (h : IsCut tokens statements rest) :
    statements = ofTokens tokens ∧ rest = unclosed tokens := by
  have hfound : ofTokens (statements.flatMap Statement.tokens) = statements :=
    ofTokens_flatMap_tokens statements h.closed
  -- Closed statements leave nothing unclosed, and the rest closes nothing.
  have hnothing : unclosed (statements.flatMap Statement.tokens) = [] := by
    have hall := flatMap_tokens_append_unclosed (statements.flatMap Statement.tokens)
    rw [hfound] at hall
    exact List.append_right_eq_self.mp hall
  have hrest : ofTokens rest = [] := by
    by_contra hne
    rcases (ofTokens_ne_nil_iff rest).mp hne with ⟨token, hmem, hseparator⟩
    exact h.unclosed token hmem hseparator
  -- What is left of the tokens behind the statements is then the rest.
  have hstatements : statements = ofTokens tokens := by
    rw [← h.whole, ofTokens_append, hfound, hnothing, List.nil_append, hrest, List.append_nil]
  refine ⟨hstatements, ?_⟩
  have hall := flatMap_tokens_append_unclosed tokens
  rw [← hstatements] at hall
  exact List.append_cancel_left (h.whole.trans hall.symm)

theorem countP_of_closed (statement : Statement) (h : statement.Closed) :
    statement.tokens.countP (fun token => token.item = .separator) = 1 := by
  rcases h with ⟨inner, closing, htokens, hclosing, hinner⟩
  -- Inside there is no separator, so the one at the end is the only one.
  have hnone : inner.countP (fun token => token.item = .separator) = 0 :=
    List.countP_eq_zero.mpr fun token hmem => by
      rw [decide_eq_true_eq]
      exact hinner token hmem
  rw [htokens, List.countP_append, hnone, List.countP_singleton, hclosing]
  rfl

/-- There is a statement for each separator. -/
theorem length_of_isCut (tokens : List (Located Token)) (statements : List Statement)
    (rest : List (Located Token)) (h : IsCut tokens statements rest) :
    statements.length = tokens.countP (fun token => token.item = .separator) := by
  -- Statement by statement; each has one separator, and the rest has none.
  induction statements generalizing tokens with
  | nil =>
      rw [← h.whole, List.length_nil, eq_comm, List.countP_eq_zero]
      intro token hmem
      rw [decide_eq_true_eq]
      exact h.unclosed token hmem
  | cons first others ih =>
      rcases List.forall_mem_cons.mp h.closed with ⟨hfirst, hothers⟩
      have hlater := ih _ ⟨rfl, hothers, h.unclosed⟩
      rw [← h.whole, List.flatMap_cons, List.append_assoc, List.countP_append,
        countP_of_closed first hfirst, ← hlater, List.length_cons, Nat.add_comm]

end Statement

/-- A reader of tokens from left to right: the statements it has closed, and the tokens
    it has in hand since. -/
structure Splitter where
  closed : List Statement
  current : List (Located Token)

namespace Splitter

/-- Nothing has been read. -/
def start : Splitter :=
  ⟨[], []⟩

/-- Read one more token. A separator closes a statement. -/
def read (splitter : Splitter) (token : Located Token) : Splitter :=
  if token.item = .separator then
    ⟨splitter.closed ++ [⟨splitter.current ++ [token]⟩], []⟩
  else
    ⟨splitter.closed, splitter.current ++ [token]⟩

/-- One more token keeps what is closed and what is in hand a cut of the tokens. -/
theorem isCut_read (splitter : Splitter) (tokens : List (Located Token)) (token : Located Token)
    (h : Statement.IsCut tokens splitter.closed splitter.current) :
    Statement.IsCut (tokens ++ [token]) (splitter.read token).closed
      (splitter.read token).current := by
  unfold read
  by_cases hseparator : token.item = .separator
  · -- The tokens in hand and the separator are a closed statement.
    rw [if_pos hseparator]
    refine ⟨?_, fun statement hmem => ?_, fun _ hmem => absurd hmem List.not_mem_nil⟩
    · rw [← h.whole, List.flatMap_append, List.flatMap_singleton, List.append_nil,
        List.append_assoc]
    · rcases List.mem_append.mp hmem with hmem | hmem
      · exact h.closed statement hmem
      · rw [List.mem_singleton.mp hmem]
        exact ⟨splitter.current, token, rfl, hseparator, h.unclosed⟩
  · rw [if_neg hseparator]
    refine ⟨?_, h.closed, fun other hmem => ?_⟩
    · rw [← h.whole, List.append_assoc]
    · rcases List.mem_append.mp hmem with hmem | hmem
      · exact h.unclosed other hmem
      · rw [List.mem_singleton.mp hmem]
        exact hseparator

/-- So they are after any number of tokens. -/
theorem isCut_foldl_read (tokens : List (Located Token)) :
    Statement.IsCut tokens (tokens.foldl read start).closed (tokens.foldl read start).current := by
  -- A fold from the left reads the last token last.
  induction tokens using List.reverseRecOn with
  | nil =>
      exact ⟨rfl, fun _ hmem => absurd hmem List.not_mem_nil,
        fun _ hmem => absurd hmem List.not_mem_nil⟩
  | append_singleton before last ih =>
      rw [List.foldl_append, List.foldl_cons, List.foldl_nil]
      exact isCut_read _ before last ih

end Splitter

/-- There is one way to cut tokens into statements: they are those of a sequence of
    tokens exactly if they are closed and if, one after the other, they are the
    tokens up to a rest that has no separator. So no token is lost but for the rest,
    none is there twice, and each separator makes one statement. Reading the tokens
    from left to right finds the same statements and is left with the same rest. -/
theorem Statement.isCut_iff_ofTokens (tokens : List (Located Token)) :
    (∀ statements rest, IsCut tokens statements rest ↔
      statements = ofTokens tokens ∧ rest = unclosed tokens) ∧
    tokens.foldl Splitter.read .start = ⟨ofTokens tokens, unclosed tokens⟩ ∧
    (ofTokens tokens).length = tokens.countP (fun token => token.item = .separator) := by
  refine ⟨fun statements rest => ⟨eq_of_isCut tokens statements rest, ?_⟩, ?_,
    length_of_isCut tokens _ _ (isCut_ofTokens tokens)⟩
  · rintro ⟨rfl, rfl⟩
    exact isCut_ofTokens tokens
  · -- The reader ends with a cut of all the tokens, and there is no other.
    rcases eq_of_isCut tokens _ _ (Splitter.isCut_foldl_read tokens) with ⟨hclosed, hcurrent⟩
    rw [← hclosed, ← hcurrent]

end PrefixScript
