import PrefixScript.Proofs.Exactness
import PrefixScript.Proofs.Partition
import PrefixScript.Proofs.Provenance
import PrefixScript.Proofs.Run
import PrefixScript.Script

/-!
# Literal Values

What values there are in a script.

A script computes, but it does not store what it computes. Variables are bound
to the values of operands, and an operand is a literal or a variable, so every
value that is bound or used has been a literal of the script. Only the answers
of operators can be anything else, and nothing ever reads an answer.

No literal of a text is negative. Half of all numbers are therefore never
operands, and most of what can go wrong with two operands cannot happen: a
difference always fits, a quotient fits if there is one, and a sum or a product
can only be too large. It also means that a script prints no minus sign.

## Main definitions

* `Operator.Undefined`: Two numbers that are not negative have no answer.
* `Text.IsBlock`, `Text.Plain`: What printed text is made of.
* `Sink.Took`: What a sink holds of the text that was written to it.
* `IsLiteralOf`: A value is that of a literal.
* `LiteralsOnly`: All variables are bound to values of literals.
* `PlainSoFar`: What is true at every point of a run.
* `Tame`: What a statement can meet at its point of a run.

## Theorems

* `Operator.answer?_eq_none_iff`, `Operator.answer?_ne_minValue`: The answers for
  numbers that are not negative.
* `Value.plain_printed`: Printing a value that is not negative writes plain text.
* `Sink.took_write`: A sink takes texts one after the other.
* `isLiteralOf_of_valueOf`, `literalsOnly_eval`: Operands have the values of literals,
  and so do the variables that are bound to them.
* `plainSoFar_eval`, `plainSoFar_evalAll`: One step of a run, and the run.
* `Outcome.ofText_values`: The values of a script, its answers, and its output.
-/

namespace PrefixScript

/-! ### Operators on numbers that are not negative -/

namespace Operator

/-- An operator has no answer for two numbers, neither of which is negative. -/
def Undefined (op : Operator) (m n : Int64) : Prop :=
  match op with
  | .eq | .sub => False
  | .add => 2 ^ 63 - 1 < m.toInt + n.toInt
  | .mul => 2 ^ 63 - 1 < m.toInt * n.toInt
  | .div => n = 0

theorem answer?_eq_none_iff (op : Operator) (m n : Int64) (hm : 0 ≤ m.toInt) (hn : 0 ≤ n.toInt) :
    op.answer? (.int m) (.int n) = none ↔ op.Undefined m n := by
  have hmhigh := m.toInt_lt
  have hnhigh := n.toInt_lt
  cases op with
  | eq => simp only [answer?, equal?, reduceCtorEq, Undefined]
  | add =>
      simp only [answer?, arithmetic?, Option.map_eq_none_iff, Undefined,
        (Checked.isExact_add? m n).eq_none_iff]
      omega
  | sub =>
      -- A difference is at least minus the second number, so it is in range.
      simp only [answer?, arithmetic?, Option.map_eq_none_iff, Undefined, iff_false,
        (Checked.isExact_sub? m n).eq_none_iff]
      omega
  | mul =>
      -- A product is not negative, so it can only be too large.
      have hpos := Int.mul_nonneg hm hn
      simp only [answer?, arithmetic?, Option.map_eq_none_iff, Undefined,
        (Checked.isExact_mul? m n).eq_none_iff]
      omega
  | div =>
      simp only [answer?, arithmetic?, Option.map_eq_none_iff, Undefined]
      by_cases hzero : n = 0
      · rw [hzero, Checked.div?_zero]
        exact ⟨fun _ => rfl, fun _ => rfl⟩
      · -- A quotient is between zero and the dividend.
        have hlow := Int.tdiv_nonneg hm hn
        have hhigh := Int.tdiv_le_self n.toInt hm
        rw [(Checked.isExact_div? m n hzero).eq_none_iff]
        simp only [hzero, iff_false]
        omega

/-- The least integer is never an answer for two values that are not negative. -/
theorem answer?_ne_minValue (op : Operator) (l r : Value) (hl : l.NonNegative)
    (hr : r.NonNegative) : op.answer? l r ≠ some (.int Int64.minValue) := by
  intro h
  rcases (answer?_eq_int_iff op l r _).mp h with ⟨m, n, rfl, rfl, hresult⟩
  rw [show Int64.minValue.toInt = -2 ^ 63 from by decide] at hresult
  have hm := hl.1
  have hn := hr.1
  cases op with
  | eq => exact absurd hresult (by simp only [result?, reduceCtorEq, not_false_eq_true])
  | add | sub =>
      -- The least difference is that of zero and the greatest integer, one above.
      have hhigh := n.toInt_lt
      simp only [result?, Option.some.injEq] at hresult
      omega
  | mul =>
      have hpos := Int.mul_nonneg hm hn
      simp only [result?, Option.some.injEq] at hresult
      omega
  | div =>
      have hpos := Int.tdiv_nonneg hm hn
      simp only [result?, Option.ite_none_left_eq_some, Option.some.injEq] at hresult
      omega

end Operator

/-! ### Plain text -/

namespace Text

/-- A number without a sign, a truth value, or the end of a line. -/
def IsBlock (block : String) : Prop :=
  Decimal.isNumeral block.toList = true ∨ block = "true" ∨ block = "false" ∨ block = "\n"

/-- Nothing but such blocks. -/
def Plain (text : String) : Prop :=
  ∃ blocks, (∀ block ∈ blocks, IsBlock block) ∧ text = String.join blocks

theorem plain_empty : Plain "" :=
  ⟨[], fun _ hmem => absurd hmem List.not_mem_nil, rfl⟩

theorem plain_of_isBlock (block : String) (h : IsBlock block) : Plain block := by
  refine ⟨[block], fun other hother => ?_, ?_⟩
  · rw [List.mem_singleton.mp hother]
    exact h
  · rw [String.join_cons, String.join_nil, String.append_empty]

theorem plain_append (text more : String) (h : Plain text) (hmore : Plain more) :
    Plain (text ++ more) := by
  rcases h with ⟨blocks, hblocks, rfl⟩
  rcases hmore with ⟨blocks', hblocks', rfl⟩
  exact ⟨blocks ++ blocks', List.forall_mem_append.mpr ⟨hblocks, hblocks'⟩,
    String.join_append.symm⟩

theorem minus_not_mem_of_isBlock (block : String) (h : IsBlock block) : '-' ∉ block.toList := by
  rcases h with h | rfl | rfl | rfl
  · intro hmem
    -- The minus sign is no digit, and the words do not have it either.
    have hdigit := ((Token.isNumeral_iff block.toList).mp h).2 '-' hmem
    exact absurd hdigit (by decide)
  all_goals decide

theorem minus_not_mem_of_plain (text : String) (h : Plain text) : '-' ∉ text.toList := by
  rcases h with ⟨blocks, hblocks, rfl⟩
  rw [String.toList_join, List.mem_flatMap]
  rintro ⟨block, hblock, hminus⟩
  exact minus_not_mem_of_isBlock block (hblocks block hblock) hminus

end Text

namespace Value

/-- A value that is not negative is written as one block. -/
theorem isBlock_text (v : Value) (h : v.NonNegative) : Text.IsBlock v.text := by
  cases v with
  | int n =>
      rcases exists_digits_of_nonNegative n h.1 with ⟨k, _, hchars⟩
      refine Or.inl ?_
      rw [toList_text, hchars]
      exact Decimal.isNumeral_digits k
  | bool b =>
      cases b with
      | true => exact Or.inr (Or.inl rfl)
      | false => exact Or.inr (Or.inr (Or.inl rfl))

theorem plain_printed (v : Value) (newline : Bool) (h : v.NonNegative) :
    Text.Plain (v.printed newline) := by
  have htext := Text.plain_of_isBlock v.text (v.isBlock_text h)
  cases newline with
  | false => exact htext
  | true =>
      have hend := Text.plain_of_isBlock "\n" (Or.inr (Or.inr (Or.inr rfl)))
      exact Text.plain_append v.text "\n" htext hend

end Value

/-! ### What a sink takes -/

namespace Sink

/-- A sink holds the text behind what it held at first, or a beginning of it if it has
    no room left. -/
def Took (initial sink : Sink) (text : String) : Prop :=
  ∃ lost, sink.kept ++ lost = initial.kept ++ text.toUTF8 ∧ (lost = .empty ∨ sink.room = some 0)

/-- What a sink takes of one text is the text, cut where the room ends. -/
theorem took_write_self (sink : Sink) (text : String) : Took sink (sink.write text) text := by
  cases hroom : sink.room with
  | none =>
      refine ⟨.empty, ?_, Or.inl rfl⟩
      rw [sink.kept_write_of_unlimited text hroom, ByteArray.append_empty]
  | some room =>
      refine ⟨text.toUTF8.extract room text.toUTF8.size, ?_, ?_⟩
      · rw [sink.kept_write_of_limited text room hroom, ByteArray.append_assoc,
          ByteArray.extract_append_extract, Nat.min_eq_left (Nat.zero_le room)]
        congr 1
        exact extract_of_size_le text.toUTF8 _ (Nat.le_max_right room text.toUTF8.size)
      · -- If nothing is lost the text was kept whole, and otherwise no room is left.
        by_cases hfits : text.utf8ByteSize ≤ room
        · refine Or.inl (ByteArray.extract_eq_empty_iff.mpr ?_)
          rw [Nat.min_self]
          exact hfits
        · refine Or.inr ?_
          simp only [write, hroom, Option.some.injEq]
          omega

/-- A sink takes texts one after the other. -/
theorem took_write (initial sink : Sink) (text more : String) (h : Took initial sink text) :
    Took initial (sink.write more) (text ++ more) := by
  rcases h with ⟨lost, hkept, hlost⟩
  have hall : initial.kept ++ (text ++ more).toUTF8 = sink.kept ++ lost ++ more.toUTF8 := by
    rw [hkept, ByteArray.append_assoc]
    exact congrArg (initial.kept ++ ·) String.toByteArray_append
  rcases hlost with rfl | hfull
  · rcases sink.took_write_self more with ⟨lost, hmore, hlost⟩
    refine ⟨lost, ?_, hlost⟩
    rw [hmore, hall, ByteArray.append_empty]
  · -- A full sink keeps nothing more.
    refine ⟨lost ++ more.toUTF8, ?_, Or.inr ?_⟩
    · rw [hall, sink.kept_write_of_limited more 0 hfull, ByteArray.extract_same,
        ByteArray.append_empty, ByteArray.append_assoc]
    · simp only [write, hfull, Nat.zero_sub]

end Sink

namespace Statement

/-- The value is that of a literal among the tokens. -/
def IsLiteralOf (tokens : List (Located Token)) (v : Value) : Prop :=
  ∃ line, (⟨.literal v, line⟩ : Located Token) ∈ tokens

/-- All variables are bound to values of literals. -/
def LiteralsOnly (tokens : List (Located Token)) (env : Environment) : Prop :=
  ∀ name v, env.get? name = some v → IsLiteralOf tokens v

section Literals

variable (tokens : List (Located Token)) (statement : Statement)
  (h : statement ∈ ofTokens tokens)

include h

/-- An operand has the value of a literal, if all variables do. -/
theorem isLiteralOf_of_valueOf (env : Environment) (henv : LiteralsOnly tokens env)
    (operand : Located Operand) (hoperand : operand ∈ statement.resolved) (v : Value)
    (hv : env.valueOf operand = .ok v) : IsLiteralOf tokens v := by
  rcases env.valueOf_cases operand v hv with hitem | ⟨x, _, hx⟩
  · -- The literal is among the tokens, since the statement is.
    rcases statement.exists_token_of_mem_resolved operand hoperand with ⟨token, htoken, hread⟩
    have hliteral := ((token.operand?_eq_some_iff operand).mp hread).1
    rw [hitem, Operand.toToken] at hliteral
    have hmem := (sublist_of_mem_ofTokens tokens statement h).mem htoken
    refine ⟨token.line, ?_⟩
    rw [← hliteral]
    exact hmem
  · exact henv x v hx

/-- What a statement binds is the value of an operand, and so that of a literal. -/
theorem literalsOnly_eval (session : Session)
    (hliterals : LiteralsOnly tokens session.environment) :
    LiteralsOnly tokens (statement.eval session).session.environment := by
  rcases statement.environment_eval_cases session with hsame | ⟨target, source, v, hform, hv, hbind⟩
  · rw [hsame]
    exact hliterals
  · -- What is bound is the value of the source, and so that of a literal.
    have hsource : source ∈ statement.resolved := by
      rw [resolved, hform]
      exact List.mem_singleton_self source
    have hliteral := isLiteralOf_of_valueOf tokens statement h _ hliterals source hsource v hv
    intro name w hw
    rw [hbind, Environment.get?_insert] at hw
    by_cases hname : target = name
    · rw [if_pos hname, Option.some.injEq] at hw
      rw [← hw]
      exact hliteral
    · rw [if_neg hname] at hw
      exact hliterals name w hw

end Literals

/-- What is true at every point of a run: all variables have the values of literals,
    and the output has taken plain text. -/
structure PlainSoFar (tokens : List (Located Token)) (output : Sink) (session : Session) :
    Prop where
  literals : LiteralsOnly tokens session.environment
  text : ∃ text, Text.Plain text ∧ Sink.Took output session.output text

/-- What a statement can meet where it is evaluated: the values of its operands are not
    negative and those of literals, whatever it prints is plain text, an operator on
    numbers is silent only if its answer is not defined, and the least integer is no
    answer. -/
structure Tame (tokens : List (Located Token)) (session : Session) (statement : Statement) :
    Prop where
  operands : ∀ operand ∈ statement.resolved, ∀ v, session.environment.valueOf operand = .ok v →
    v.NonNegative ∧ IsLiteralOf tokens v
  prints : ∀ operand newline v, statement.form? = some (.write operand newline) →
    session.environment.valueOf operand = .ok v → Text.Plain (v.printed newline)
  silence : ∀ op left right m n, statement.form? = some (.compute op left right) →
    session.environment.valueOf left = .ok (.int m) →
    session.environment.valueOf right = .ok (.int n) →
    ∃ answer, (statement.eval session).answer = .ok answer ∧ (answer = none ↔ op.Undefined m n)
  answer : (statement.eval session).answer ≠ .ok (some (.int Int64.minValue))

section Source

variable (source : String)

theorem nonNegative_of_isLiteralOf (v : Value) (h : IsLiteralOf (Token.ofText source) v) :
    v.NonNegative := by
  rcases h with ⟨line, hmem⟩
  exact Token.lexical_of_mem_ofText source _ hmem

variable (statement : Statement) (h : statement ∈ ofTokens (Token.ofText source))

include h

theorem nonNegative_of_valueOf (env : Environment) (henv : LiteralsOnly (Token.ofText source) env)
    (operand : Located Operand) (hoperand : operand ∈ statement.resolved) (v : Value)
    (hv : env.valueOf operand = .ok v) :
    v.NonNegative ∧ IsLiteralOf (Token.ofText source) v := by
  have hliteral := isLiteralOf_of_valueOf (Token.ofText source) statement h env henv operand
    hoperand v hv
  exact ⟨nonNegative_of_isLiteralOf source v hliteral, hliteral⟩

/-- One step of a run: what is true in front of a statement is true behind it. -/
theorem plainSoFar_eval (output : Sink) (session : Session)
    (hplain : PlainSoFar (Token.ofText source) output session) :
    PlainSoFar (Token.ofText source) output (statement.eval session).session := by
  refine ⟨literalsOnly_eval (Token.ofText source) statement h session hplain.literals, ?_⟩
  rcases hplain.text with ⟨text, htext, htook⟩
  rcases exists_output_eval statement session with ⟨more, houtput, hmore⟩
  -- Nothing is written, or the value of an operand is.
  have hwritten : Text.Plain more := by
    rcases hmore with rfl | ⟨operand, hoperand, v, newline, hv, rfl⟩
    · exact Text.plain_empty
    · exact v.plain_printed newline
        (nonNegative_of_valueOf source statement h _ hplain.literals operand hoperand v hv).1
  refine ⟨text ++ more, Text.plain_append text more htext hwritten, ?_⟩
  rw [houtput]
  exact Sink.took_write output session.output text more htook

theorem tame_of_literalsOnly (session : Session)
    (hliterals : LiteralsOnly (Token.ofText source) session.environment) :
    Tame (Token.ofText source) session statement := by
  have hoperands := nonNegative_of_valueOf source statement h session.environment hliterals
  -- Both operands of an operator are operands of its statement.
  have hresolved : ∀ op left right, statement.form? = some (.compute op left right) →
      left ∈ statement.resolved ∧ right ∈ statement.resolved := by
    intro op left right hform
    simp only [resolved, hform, Command.operands, List.mem_cons, true_or, or_true, and_self]
  refine ⟨hoperands, ?_, ?_, ?_⟩
  · intro operand newline v hform hv
    have hoperand : operand ∈ statement.resolved := by
      rw [resolved, hform]
      exact List.mem_singleton_self operand
    exact v.plain_printed newline (hoperands operand hoperand v hv).1
  · intro op left right m n hform hm hn
    rcases hresolved op left right hform with ⟨hleft, hright⟩
    have hmpos := (hoperands left hleft _ hm).1.1
    have hnpos := (hoperands right hright _ hn).1.1
    exact ⟨_, answer_eval_of_compute statement session op left right _ _ hform hm hn,
      op.answer?_eq_none_iff m n hmpos hnpos⟩
  · intro hanswer
    rcases exists_compute_of_answer_eval statement session _ hanswer with
      ⟨op, left, right, l, r, hform, hl, hr, hmin⟩
    rcases hresolved op left right hform with ⟨hleft, hright⟩
    have hlpos := (hoperands left hleft l hl).1
    have hrpos := (hoperands right hright r hr).1
    exact op.answer?_ne_minValue l r hlpos hrpos hmin

end Source

/-- At every point of a run all variables have the values of literals, and the output
    has taken plain text. -/
theorem plainSoFar_evalAll (source : String) (output : Sink) (before after : List Statement)
    (h : ofTokens (Token.ofText source) = before ++ after) :
    PlainSoFar (Token.ofText source) output (evalAll before (Session.start output)).session := by
  refine session_evalAll_of_invariant (PlainSoFar (Token.ofText source) output) before _ ?_ ?_
  · -- Nothing is bound and nothing is written at the start.
    refine ⟨fun name v hv => ?_, "", Text.plain_empty, .empty, rfl, Or.inl rfl⟩
    exact absurd hv (by simp only [Session.start, Environment.get?_empty, reduceCtorEq,
      not_false_eq_true])
  · intro statement hmem reached hreached
    refine plainSoFar_eval source statement ?_ output reached hreached
    rw [h]
    exact List.mem_append_left after hmem

end Statement

/-- The values of a script, for every text and every output. At every point of the run
    the bound values are not negative and those of literals of the text, every statement
    is tame where it is evaluated, and all that is printed is plain text, which has no
    minus sign. -/
theorem Outcome.ofText_values (source : String) (output : Sink) :
    (∀ before after, Statement.ofTokens (Token.ofText source) = before ++ after →
      ∀ name v,
        (Statement.evalAll before (Session.start output)).session.environment.get? name = some v →
        v.NonNegative ∧ Statement.IsLiteralOf (Token.ofText source) v) ∧
    (∀ before statement after,
      Statement.ofTokens (Token.ofText source) = before ++ statement :: after →
      Statement.Tame (Token.ofText source)
        (Statement.evalAll before (Session.start output)).session statement) ∧
    ∃ text, Text.Plain text ∧ '-' ∉ text.toList ∧
      Sink.Took output (ofText source output).session.output text := by
  refine ⟨fun before after hsplit name v hv => ?_, fun before statement after hsplit => ?_, ?_⟩
  · have hplain := Statement.plainSoFar_evalAll source output before after hsplit
    have hliteral := hplain.literals name v hv
    exact ⟨Statement.nonNegative_of_isLiteralOf source v hliteral, hliteral⟩
  · have hplain := Statement.plainSoFar_evalAll source output before (statement :: after) hsplit
    refine Statement.tame_of_literalsOnly source statement ?_ _ hplain.literals
    rw [hsplit]
    exact List.mem_append_right before List.mem_cons_self
  · -- The whole run is the part of the run in front of nothing.
    have hplain := Statement.plainSoFar_evalAll source output _ [] (List.append_nil _).symm
    rcases hplain.text with ⟨text, htext, htook⟩
    exact ⟨text, htext, Text.minus_not_mem_of_plain text htext, htook⟩

/-- A variable that was bound to a variable still has the value of a literal. Taking
    something from it leads below zero, which is answered and not stored. -/
theorem Outcome.literal_of_copied_variable :
    (ofText "let x 3 ;\nlet y x ;\nsub y 5 ;" .unlimited).answer = .ok (some (.int (-2))) ∧
    (ofText "let x 3 ;\nlet y x ;\nsub y 5 ;" .unlimited).session.environment.get? "y" =
      some (.int 3) ∧
    Statement.IsLiteralOf (Token.ofText "let x 3 ;\nlet y x ;\nsub y 5 ;") (.int 3) := by
  have hy : (ofText "let x 3 ;\nlet y x ;\nsub y 5 ;" .unlimited).session.environment.get? "y" =
      some (.int 3) := by
    decide +kernel
  have hvalues := (ofText_values "let x 3 ;\nlet y x ;\nsub y 5 ;" .unlimited).1
  exact ⟨by decide +kernel, hy, (hvalues _ [] (List.append_nil _).symm "y" (.int 3) hy).2⟩

end PrefixScript
