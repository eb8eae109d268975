import PrefixScript.Proofs.Partition
import PrefixScript.Proofs.Stopping
import PrefixScript.Script

/-!
# Dead Code

What can be taken out of a script without anybody noticing.

A statement without a form does nothing, so it can go, together with its
separator, and the tokens behind the last separator can go as well. What makes
this more than a fact on statements is that the tokens that are left have to be
cut again. They fall into the statements that were kept, since each of them has
brought its separator with it.

An operator that meets no fault only answers. Without it the script binds and
prints the same, and meets the same fault if it meets one. The one thing that can
be noticed is the value of the script, which is then the last value that any of
the remaining statements has. The outcomes of these are what they were, so the
values can be read off the original trace.

## Main definitions

* `Statement.recognisedTokens`: The tokens of the statements that have a form.
* `without`: A list without the items at some positions.
* `Statement.Removable`: At some positions there are operators that meet no fault.

## Theorems

* `ofTokens_recognisedTokens`: The tokens kept fall into the statements kept.
* `evalAll_filter_recognised`: Statements without a form can go.
* `exists_compute_of_value?`: Only operators have values.
* `removable_tail`: What is removable stays so behind the first statement.
* `trace_without`: The outcomes of the statements that are left do not change.
* `evalAll_without`: Neither do the session and the fault.
* `ofTokens_without_dead_code`: What can be taken out of a script.
-/

namespace PrefixScript

/-- A list without the items at the marked positions. -/
def without {α : Type} (marked : Nat → Bool) : List α → List α
  | [] => []
  | x :: rest =>
    if marked 0 then without (fun k => marked (k + 1)) rest
    else x :: without (fun k => marked (k + 1)) rest

theorem without_cons_of_marked {α : Type} (marked : Nat → Bool) (x : α) (rest : List α)
    (h : marked 0 = true) :
    without marked (x :: rest) = without (fun k => marked (k + 1)) rest :=
  if_pos h

theorem without_cons_of_not_marked {α : Type} (marked : Nat → Bool) (x : α) (rest : List α)
    (h : marked 0 = false) :
    without marked (x :: rest) = x :: without (fun k => marked (k + 1)) rest :=
  if_neg (by rw [h]; exact Bool.false_ne_true)

theorem without_of_none_marked {α : Type} (marked : Nat → Bool) (xs : List α)
    (h : ∀ k, marked k = false) : without marked xs = xs := by
  induction xs generalizing marked with
  | nil => rfl
  | cons x rest ih => rw [without_cons_of_not_marked marked x rest (h 0), ih _ fun k => h (k + 1)]

namespace Statement

/-! ### Statements without a form -/

/-- The tokens of the statements that have a form, one statement after the other. -/
def recognisedTokens (tokens : List (Located Token)) : List (Located Token) :=
  ((ofTokens tokens).filter fun statement => statement.form?.isSome).flatMap Statement.tokens

/-- The tokens that are kept fall into the statements that are kept. -/
theorem ofTokens_recognisedTokens (tokens : List (Located Token)) :
    ofTokens (recognisedTokens tokens) =
      (ofTokens tokens).filter fun statement => statement.form?.isSome :=
  ofTokens_flatMap_tokens _ fun statement hmem =>
    exists_closing_of_mem_ofTokens tokens statement (List.mem_filter.mp hmem).1

/-- Statements without a form can go. -/
theorem evalAll_filter_recognised (statements : List Statement) (session : Session) :
    evalAll (statements.filter fun statement => statement.form?.isSome) session =
      evalAll statements session := by
  induction statements generalizing session with
  | nil => rfl
  | cons statement rest ih =>
      rw [evalAll_cons]
      cases hform : statement.form? with
      -- Without a form nothing is done, so leaving the statement out changes nothing.
      | none =>
          rw [List.filter_cons_of_neg (by rw [hform]; exact Bool.false_ne_true), ih,
            eval_of_form?_eq_none statement session hform, Outcome.idle_andThen]
      | some command =>
          rw [List.filter_cons_of_pos (by rw [hform]; rfl), evalAll_cons]
          congr 1
          funext reached
          exact ih reached

/-! ### Operators -/

/-- Where a trace has a value, there is an operator. -/
theorem exists_compute_of_value? (statements : List Statement) (session : Session) (k : Nat)
    (outcome : Outcome) (v : Value) (h : (trace statements session)[k]? = some outcome)
    (hvalue : outcome.value? = some v) :
    ∃ statement op left right, statements[k]? = some statement ∧
      statement.form? = some (.compute op left right) := by
  rcases eq_eval_sessionAt_of_trace statements session k outcome h with
    ⟨statement, hposition, rfl⟩
  cases hanswer : (statement.eval (sessionAt statements session k)).answer with
  | error fault =>
      rw [Outcome.value?, hanswer] at hvalue
      exact absurd hvalue (by simp only [reduceCtorEq, not_false_eq_true])
  | ok value =>
      rw [Outcome.value?_of_ok _ value hanswer] at hvalue
      -- A value comes from an operator, and from nothing else.
      rw [hvalue] at hanswer
      rcases exists_compute_of_answer_eval statement _ v hanswer with
        ⟨op, left, right, _, _, hform, _⟩
      exact ⟨statement, op, left, right, hposition, hform⟩

/-- At the marked positions there are operators, and they are evaluated without a
    fault. -/
def Removable (statements : List Statement) (session : Session) (marked : Nat → Bool) : Prop :=
  ∀ k, marked k = true →
    (∃ statement op left right, statements[k]? = some statement ∧
      statement.form? = some (.compute op left right)) ∧
    ∃ outcome, (trace statements session)[k]? = some outcome ∧ outcome.Completed

/-- What is removable behind the first statement, if that meets no fault. -/
theorem removable_tail (statement : Statement) (rest : List Statement) (session : Session)
    (marked : Nat → Bool) (value : Option Value) (h : Removable (statement :: rest) session marked)
    (hvalue : (statement.eval session).answer = .ok value) :
    Removable rest (statement.eval session).session fun k => marked (k + 1) := by
  intro k hk
  have hnext := h (k + 1) hk
  rw [trace_cons_of_ok statement rest session value hvalue] at hnext
  exact hnext

/-- Nothing is removable at a fault or behind it. -/
theorem not_marked_of_error (statement : Statement) (rest : List Statement) (session : Session)
    (marked : Nat → Bool) (fault : Fault) (h : Removable (statement :: rest) session marked)
    (hfault : (statement.eval session).answer = .error fault) (k : Nat) : marked k = false := by
  cases hk : marked k with
  | false => rfl
  | true =>
      rcases (h k hk).2 with ⟨outcome, houtcome, hdone⟩
      -- The fault ends the trace, so the marked outcome would have to be the fault itself.
      rw [trace_cons_of_error statement rest session fault hfault] at houtcome
      rw [List.mem_singleton.mp (List.mem_of_getElem? houtcome)] at hdone
      exact absurd hdone ((Outcome.not_completed_iff _).mpr ⟨fault, hfault⟩)

/-- A marked statement in front leaves the session to those behind it. -/
theorem session_eval_of_removable (statement : Statement) (rest : List Statement)
    (session : Session) (marked : Nat → Bool) (h : Removable (statement :: rest) session marked)
    (hmarked : marked 0 = true) : (statement.eval session).session = session := by
  rcases (h 0 hmarked).1 with ⟨other, op, left, right, hother, hform⟩
  rw [List.getElem?_cons_zero, Option.some.injEq] at hother
  rw [← hother] at hform
  exact session_eval_of_compute statement session op left right hform

/-- The outcomes of the statements that are left do not change. -/
theorem trace_without (statements : List Statement) (session : Session) (marked : Nat → Bool)
    (h : Removable statements session marked) :
    trace (without marked statements) session = without marked (trace statements session) := by
  induction statements generalizing session marked with
  | nil => rfl
  | cons statement rest ih =>
      cases hanswer : (statement.eval session).answer with
      | error fault =>
          -- Behind a fault nothing is marked, so nothing is left out on either side.
          have hnone := not_marked_of_error statement rest session marked fault h hanswer
          rw [without_of_none_marked marked _ hnone, without_of_none_marked marked _ hnone]
      | ok value =>
          have hrest := ih _ _ (removable_tail statement rest session marked value h hanswer)
          rw [trace_cons_of_ok statement rest session value hanswer]
          cases hmarked : marked 0 with
          | true =>
              -- The statement left out has not changed the session the others start in.
              have hsession := session_eval_of_removable statement rest session marked h hmarked
              rw [hsession] at hrest
              rw [without_cons_of_marked marked _ _ hmarked,
                without_cons_of_marked marked _ _ hmarked, hsession, hrest]
          | false =>
              rw [without_cons_of_not_marked marked _ _ hmarked,
                without_cons_of_not_marked marked _ _ hmarked,
                trace_cons_of_ok statement _ session value hanswer, hrest]

/-- Neither do the session that is reached and the fault. -/
theorem evalAll_without (statements : List Statement) (session : Session) (marked : Nat → Bool)
    (h : Removable statements session marked) :
    (evalAll (without marked statements) session).session = (evalAll statements session).session ∧
    ∀ fault, (evalAll (without marked statements) session).answer = .error fault ↔
      (evalAll statements session).answer = .error fault := by
  induction statements generalizing session marked with
  | nil => exact ⟨rfl, fun _ => Iff.rfl⟩
  | cons statement rest ih =>
      cases hanswer : (statement.eval session).answer with
      | error fault =>
          have hnone := not_marked_of_error statement rest session marked fault h hanswer
          rw [without_of_none_marked marked _ hnone]
          exact ⟨rfl, fun _ => Iff.rfl⟩
      | ok value =>
          have hdone : (statement.eval session).Completed := ⟨value, hanswer⟩
          have hno : ∀ fault, (statement.eval session).answer ≠ .error fault := by
            intro fault
            rw [hanswer]
            simp only [ne_eq, reduceCtorEq, not_false_eq_true]
          have herror : ∀ (next : Session → Outcome) (fault : Fault),
              ((statement.eval session).andThen next).answer = .error fault ↔
                (next (statement.eval session).session).answer = .error fault := by
            intro next fault
            rw [Outcome.answer_andThen_eq_error_iff]
            simp only [hno fault, hdone, false_or, true_and]
          have hsession : ∀ next : Session → Outcome,
              ((statement.eval session).andThen next).session =
                (next (statement.eval session).session).session := by
            intro next
            rw [Outcome.andThen_of_ok _ next value hanswer]
          rcases ih _ _ (removable_tail statement rest session marked value h hanswer) with
            ⟨hsame, hfaults⟩
          rw [evalAll_cons, hsession]
          simp only [herror]
          cases hmarked : marked 0 with
          | true =>
              -- The rest starts in the same session with the operator or without it.
              rw [session_eval_of_removable statement rest session marked h hmarked] at hsame hfaults ⊢
              rw [without_cons_of_marked marked _ _ hmarked]
              exact ⟨hsame, hfaults⟩
          | false =>
              rw [without_cons_of_not_marked marked _ _ hmarked, evalAll_cons, hsession]
              simp only [herror]
              exact ⟨hsame, hfaults⟩

end Statement

/-- What can be taken out of a script. Without the statements that have no form and
    without the tokens that are in no statement, its outcome is the same. Without
    some of the operators that meet no fault, it binds, prints and fails as before,
    and if it does not fail, its value is the last one that any of the remaining
    statements has in the original run, which is one of the remaining operators. -/
theorem Outcome.ofTokens_without_dead_code (tokens : List (Located Token)) (output : Sink)
    (statements : List Statement) (session : Session) (marked : Nat → Bool) :
    ofTokens (Statement.recognisedTokens tokens) output = ofTokens tokens output ∧
    (∀ (k : Nat) outcome v, (Statement.trace statements session)[k]? = some outcome →
      outcome.value? = some v →
      ∃ statement op left right, statements[k]? = some statement ∧
        statement.form? = some (.compute op left right)) ∧
    (Statement.Removable statements session marked →
      let original := Statement.evalAll statements session
      let thinned := Statement.evalAll (without marked statements) session
      thinned.session = original.session ∧
      (∀ fault, thinned.answer = .error fault ↔ original.answer = .error fault) ∧
      ∀ value, original.answer = .ok value →
        thinned.answer = .ok
          ((without marked (Statement.trace statements session)).filterMap value?).getLast?) := by
  refine ⟨?_, Statement.exists_compute_of_value? statements session, ?_⟩
  · rw [ofTokens, Statement.ofTokens_recognisedTokens, Statement.evalAll_filter_recognised]
    rfl
  · intro hremovable original thinned
    rcases Statement.evalAll_without statements session marked hremovable with ⟨hsession, hfaults⟩
    refine ⟨hsession, hfaults, fun value hvalue => ?_⟩
    cases hthinned : thinned.answer with
    | error fault =>
        -- The original run has met no fault, and faults are kept.
        have hfault : original.answer = .error fault := (hfaults fault).mp hthinned
        rw [hvalue] at hfault
        exact absurd hfault (by simp only [reduceCtorEq, not_false_eq_true])
    | ok value' =>
        rw [Statement.getLast?_trace _ session value' hthinned,
          Statement.trace_without statements session marked hremovable]

/-- Without the last operator, the value is that of the one before. -/
theorem Outcome.answer_without_last_operator :
    let statements := Statement.ofTokens (Token.ofText "add 1 2 ; print 5 ; add 3 4 ; add 5 6 ;")
    let session := Session.start .unlimited
    Statement.Removable statements session (· == 3) ∧
    (Statement.evalAll statements session).answer = .ok (some (.int 11)) ∧
    (Statement.evalAll (without (· == 3) statements) session).answer = .ok (some (.int 7)) := by
  intro statements session
  have hvalue : (Statement.evalAll statements session).answer = .ok (some (.int 11)) := by
    decide +kernel
  have hremovable : Statement.Removable statements session (· == 3) := by
    intro k hk
    rw [eq_of_beq hk]
    refine ⟨⟨⟨[⟨.keyword (.operator .add), 1⟩, ⟨.literal (.int 5), 1⟩, ⟨.literal (.int 6), 1⟩,
      ⟨.separator, 1⟩]⟩, .add, ⟨.literal (.int 5), 1⟩, ⟨.literal (.int 6), 1⟩,
      by decide +kernel, by decide +kernel⟩, ?_⟩
    -- A completed run has an outcome for each statement, so there is one at the mark.
    rcases Statement.trace_of_completed statements session ⟨_, hvalue⟩ with ⟨hlength, hall⟩
    have hthree : 3 < (Statement.trace statements session).length := by
      rw [hlength]
      decide +kernel
    exact ⟨_, List.getElem?_eq_getElem hthree, hall _ (List.getElem_mem hthree)⟩
  refine ⟨hremovable, hvalue, ?_⟩
  rw [((ofTokens_without_dead_code [] .unlimited statements session (· == 3)).2.2
    hremovable).2.2 _ hvalue]
  decide +kernel

end PrefixScript
