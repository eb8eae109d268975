import Mathlib.Data.List.Induction
import PrefixScript.Proofs.Effect

/-!
# Runs

Statements evaluated one after the other, seen from their last statement.

A run is followed by adding statements at its end. That is the order in which a
session changes, and the statements already evaluated are then exactly what a
property of the session can be about. A run completes if it meets no fault, and
a completed run goes on with the next statement in the session it has reached;
a run that has met a fault stays as it is.

An output without limit never refuses, and it stays an output without limit. On
such an output the only faults are those of operands, and a statement with a
fault changes nothing at all.

## Main definitions

* `Outcome.Completed`: Having met no fault.
* `Statement.executed`: The statements before the first fault.

## Theorems

* `exists_effect_of_completed`: Meeting no fault is having had an effect.
* `completed_evalAll_concat_iff`: A run completes if all but its last statement
  do, and the last one then does too.
* `exists_effect_of_completed_concat`: One step of a completed run.
* `evalAll_of_fault`: A fault ends the run.
* `answer_evalAll_eq_error_iff`: A fault of a run is the fault of a statement
  after a completed run of those before it.
* `executed_spec`: What is executed completes, and is followed by the end or by a
  fault.
* `session_evalAll_of_invariant`: What every statement keeps, a run keeps.
* `exists_output_eval`, `environment_eval_cases`: All that a statement can do to the
  output and to the variables.
* `environment_evalAll_eq_executed`: Only executed statements bind.
* `answer_eval_of_compute`, `exists_compute_of_answer_eval`: Operators produce
  values, and nothing else does.
* `session_eval_of_compute`: Operators do nothing else.
* `exists_kept_evalAll_append`: The output only grows.
* `room_evalAll_of_unlimited`: An output without limit stays so.
* `completed_eval_iff_of_unlimited`: Without limit, having an effect is enough.
* `session_evalAll_of_unlimited`: Without limit, a fault leaves no trace.
-/

namespace PrefixScript

namespace Outcome

/-- No fault was met. -/
def Completed (outcome : Outcome) : Prop :=
  ∃ value, outcome.answer = .ok value

theorem not_completed_iff (outcome : Outcome) :
    ¬ outcome.Completed ↔ ∃ fault, outcome.answer = .error fault := by
  unfold Completed
  cases outcome.answer with
  | ok value => simp only [Except.ok.injEq, exists_eq', not_true_eq_false, reduceCtorEq, exists_false]
  | error fault => simp only [reduceCtorEq, exists_false, not_false_eq_true, Except.error.injEq,
      exists_eq']

theorem andThen_of_error (outcome : Outcome) (next : Session → Outcome) (fault : Fault)
    (h : outcome.answer = .error fault) : outcome.andThen next = outcome := by
  unfold andThen
  rw [h]

theorem andThen_of_ok (outcome : Outcome) (next : Session → Outcome) (earlier : Option Value)
    (h : outcome.answer = .ok earlier) :
    outcome.andThen next =
      ⟨latest earlier (next outcome.session).answer, (next outcome.session).session⟩ := by
  unfold andThen
  rw [h]

theorem answer_andThen_eq_error_iff (outcome : Outcome) (next : Session → Outcome)
    (fault : Fault) :
    (outcome.andThen next).answer = .error fault ↔
      outcome.answer = .error fault ∨
        outcome.Completed ∧ (next outcome.session).answer = .error fault := by
  cases h : outcome.answer with
  | error first =>
      -- A first part that stops has not completed, so its fault is the only one.
      have hnot : ¬ outcome.Completed := (not_completed_iff outcome).mpr ⟨first, h⟩
      rw [andThen_of_error outcome next first h, h]
      simp only [hnot, false_and, or_false]
  | ok earlier =>
      have hdone : outcome.Completed := ⟨earlier, h⟩
      rw [andThen_of_ok outcome next earlier h]
      cases (next outcome.session).answer with
      | ok later => simp only [latest, reduceCtorEq, and_false, or_false]
      | error second => simp only [latest, reduceCtorEq, false_or, hdone, true_and]

theorem completed_andThen_iff (outcome : Outcome) (next : Session → Outcome) :
    (outcome.andThen next).Completed ↔ outcome.Completed ∧ (next outcome.session).Completed := by
  -- Not to complete is to meet a fault, in the first part or in the second.
  rw [← not_iff_not, not_and_or, not_completed_iff, not_completed_iff, not_completed_iff]
  simp only [answer_andThen_eq_error_iff, exists_or, exists_and_left]
  by_cases hdone : outcome.Completed
  · simp only [hdone, true_and]
  · simp only [hdone, false_and, or_false, (not_completed_iff outcome).mp hdone, true_or]

end Outcome

/-- Bytes for which there is room are kept as they are. -/
theorem Sink.extract_of_size_le (bytes : ByteArray) (room : Nat) (h : bytes.size ≤ room) :
    bytes.extract 0 room = bytes := by
  ext1
  rw [ByteArray.data_extract]
  exact Array.extract_eq_self_of_le h

/-- Writing adds to what is kept, as much as there is room for. -/
theorem Sink.exists_kept_write (sink : Sink) (text : String) :
    ∃ bytes, (sink.write text).kept = sink.kept ++ bytes := by
  cases hroom : sink.room with
  | none => exact ⟨_, sink.kept_write_of_unlimited text hroom⟩
  | some room => exact ⟨_, sink.kept_write_of_limited text room hroom⟩

namespace Statement

/-- A statement that meets no fault has had its effect. -/
theorem exists_effect_of_completed (statement : Statement) (session : Session)
    (h : (statement.eval session).Completed) :
    ∃ effect, statement.effect session.environment = .ok effect ∧
      statement.eval session =
        ⟨.ok effect.answer,
          ⟨session.environment.after effect, session.output.write effect.text⟩⟩ := by
  rcases statement.eval_cases session with ⟨fault, _, heval⟩ | hsettled | ⟨effect, _, _, heval⟩
  · rw [heval] at h
    exact absurd h ((Outcome.not_completed_iff _).mpr ⟨fault, rfl⟩)
  · exact hsettled
  · -- A refused text is a fault as well.
    rw [heval] at h
    exact absurd h ((Outcome.not_completed_iff _).mpr ⟨_, rfl⟩)

theorem evalAll_concat (before : List Statement) (statement : Statement) (session : Session) :
    evalAll (before ++ [statement]) session =
      (evalAll before session).andThen statement.eval := by
  rw [evalAll_append]
  congr 1
  funext reached
  rw [evalAll_cons]
  exact Outcome.andThen_idle (statement.eval reached)

theorem completed_evalAll_concat_iff (before : List Statement) (statement : Statement)
    (session : Session) :
    (evalAll (before ++ [statement]) session).Completed ↔
      (evalAll before session).Completed ∧
        (statement.eval (evalAll before session).session).Completed := by
  rw [evalAll_concat, Outcome.completed_andThen_iff]

theorem evalAll_concat_of_not_completed (before : List Statement) (statement : Statement)
    (session : Session) (h : ¬ (evalAll before session).Completed) :
    evalAll (before ++ [statement]) session = evalAll before session := by
  rcases (Outcome.not_completed_iff _).mp h with ⟨fault, hfault⟩
  rw [evalAll_concat]
  exact Outcome.andThen_of_error _ _ fault hfault

/-- The session after one more statement, behind a completed run. -/
theorem session_evalAll_concat (before : List Statement) (statement : Statement)
    (session : Session) (h : (evalAll before session).Completed) :
    (evalAll (before ++ [statement]) session).session =
      (statement.eval (evalAll before session).session).session := by
  rcases h with ⟨earlier, hearlier⟩
  rw [evalAll_concat, Outcome.andThen_of_ok _ _ earlier hearlier]

/-- One step of a completed run. The run before it is completed, and the last
    statement has an effect in the session reached, which is carried out. -/
theorem exists_effect_of_completed_concat (before : List Statement) (statement : Statement)
    (session : Session) (h : (evalAll (before ++ [statement]) session).Completed) :
    (evalAll before session).Completed ∧
      ∃ effect,
        statement.effect (evalAll before session).session.environment = .ok effect ∧
        (evalAll (before ++ [statement]) session).session =
          ⟨(evalAll before session).session.environment.after effect,
            (evalAll before session).session.output.write effect.text⟩ := by
  rcases (completed_evalAll_concat_iff before statement session).mp h with ⟨hbefore, hlast⟩
  rcases exists_effect_of_completed statement _ hlast with ⟨effect, heffect, heval⟩
  refine ⟨hbefore, effect, heffect, ?_⟩
  rw [session_evalAll_concat before statement session hbefore, heval]

theorem completed_of_completed_append (before after : List Statement) (session : Session)
    (h : (evalAll (before ++ after) session).Completed) : (evalAll before session).Completed := by
  rw [evalAll_append] at h
  exact ((Outcome.completed_andThen_iff _ _).mp h).1

theorem evalAll_append_of_error (before after : List Statement) (session : Session)
    (fault : Fault) (h : (evalAll before session).answer = .error fault) :
    evalAll (before ++ after) session = evalAll before session := by
  rw [evalAll_append]
  exact Outcome.andThen_of_error _ _ fault h

/-- A fault ends the run: the statements behind are not evaluated. -/
theorem evalAll_of_fault (before after : List Statement) (statement : Statement)
    (session : Session) (fault : Fault) (hdone : (evalAll before session).Completed)
    (hfault : (statement.eval (evalAll before session).session).answer = .error fault) :
    evalAll (before ++ statement :: after) session =
      .stopped fault (statement.eval (evalAll before session).session).session := by
  rcases hdone with ⟨earlier, hearlier⟩
  rw [evalAll_append, Outcome.andThen_of_ok _ _ earlier hearlier, evalAll_cons,
    Outcome.andThen_of_error _ _ fault hfault, hfault]
  rfl

/-- A run meets a fault at one of its statements, which is evaluated in the
    session that a completed run of those before it has reached. -/
theorem answer_evalAll_eq_error_iff (statements : List Statement) (session : Session)
    (fault : Fault) :
    (evalAll statements session).answer = .error fault ↔
      ∃ before statement after, statements = before ++ statement :: after ∧
        (evalAll before session).Completed ∧
        (statement.eval (evalAll before session).session).answer = .error fault := by
  constructor
  · -- The fault is that of the last statement, or it was there before.
    intro h
    induction statements using List.reverseRecOn with
    | nil => exact absurd h (by simp only [evalAll_nil, Outcome.idle, reduceCtorEq, not_false_eq_true])
    | append_singleton earlier last ih =>
        rw [evalAll_concat, Outcome.answer_andThen_eq_error_iff] at h
        rcases h with h | ⟨hdone, hlast⟩
        · rcases ih h with ⟨before, statement, after, rfl, hbefore, hfault⟩
          exact ⟨before, statement, after ++ [last], by
            simp only [List.append_assoc, List.cons_append], hbefore, hfault⟩
        · exact ⟨earlier, last, [], rfl, hdone, hlast⟩
  · rintro ⟨before, statement, after, rfl, hbefore, hfault⟩
    rw [evalAll_of_fault before after statement session fault hbefore hfault]
    rfl

/-- The statements that are evaluated without a fault before the first fault, or
    all of them if there is none. -/
def executed : List Statement → Session → List Statement
  | [], _ => []
  | statement :: rest, session =>
    match (statement.eval session).answer with
    | .ok _ => statement :: executed rest (statement.eval session).session
    | .error _ => []

theorem executed_cons_of_error (statement : Statement) (rest : List Statement)
    (session : Session) (fault : Fault) (h : (statement.eval session).answer = .error fault) :
    executed (statement :: rest) session = [] := by
  rw [executed, h]

theorem executed_cons_of_ok (statement : Statement) (rest : List Statement)
    (session : Session) (value : Option Value) (h : (statement.eval session).answer = .ok value) :
    executed (statement :: rest) session =
      statement :: executed rest (statement.eval session).session := by
  rw [executed, h]

/-- What is executed is a completed run. Behind it there is nothing, or the
    statement that meets the fault. -/
theorem executed_spec (statements : List Statement) (session : Session) :
    (evalAll (executed statements session) session).Completed ∧
      ∃ rest, statements = executed statements session ++ rest ∧
        (rest = [] ∨ ∃ statement after fault, rest = statement :: after ∧
          (statement.eval (evalAll (executed statements session) session).session).answer =
            .error fault) := by
  induction statements generalizing session with
  | nil => exact ⟨⟨none, rfl⟩, [], rfl, Or.inl rfl⟩
  | cons statement rest ih =>
      cases hstep : (statement.eval session).answer with
      | error fault =>
          rw [executed_cons_of_error statement rest session fault hstep]
          exact ⟨⟨none, rfl⟩, statement :: rest, rfl, Or.inr ⟨statement, rest, fault, rfl, hstep⟩⟩
      | ok value =>
          have hsome := executed_cons_of_ok statement rest session value hstep
          rcases ih (statement.eval session).session with ⟨hdone, after, hafter, hend⟩
          -- What the rest executes starts where the first statement has ended.
          have hsession : (evalAll (executed (statement :: rest) session) session).session =
              (evalAll (executed rest (statement.eval session).session)
                (statement.eval session).session).session := by
            rw [hsome, evalAll_cons, Outcome.andThen_of_ok _ _ value hstep]
          refine ⟨?_, after, ?_, ?_⟩
          · rw [hsome, evalAll_cons, Outcome.completed_andThen_iff]
            exact ⟨⟨value, hstep⟩, hdone⟩
          · rw [hsome, List.cons_append, ← hafter]
          · rw [hsession]
            exact hend

/-- What every statement keeps, a run keeps, whether it is completed or not. -/
theorem session_evalAll_of_invariant (invariant : Session → Prop) (statements : List Statement)
    (session : Session) (hstart : invariant session)
    (hstep : ∀ statement ∈ statements, ∀ reached, invariant reached →
      invariant (statement.eval reached).session) :
    invariant (evalAll statements session).session := by
  induction statements using List.reverseRecOn with
  | nil => exact hstart
  | append_singleton before statement ih =>
      have hbefore := ih fun other hother => hstep other (List.mem_append_left [statement] hother)
      -- A run that has stopped takes no further step.
      by_cases hdone : (evalAll before session).Completed
      · rw [session_evalAll_concat before statement session hdone]
        exact hstep statement (List.mem_append_right before (List.mem_singleton_self _)) _ hbefore
      · rw [evalAll_concat_of_not_completed before statement session hdone]
        exact hbefore

/-- A statement leaves the output as if it had written some text to it. The text is
    empty, or it is a value of an operand. -/
theorem exists_output_eval (statement : Statement) (session : Session) :
    ∃ text, (statement.eval session).session.output = session.output.write text ∧
      (text = "" ∨ ∃ operand ∈ statement.resolved, ∃ v newline,
        session.environment.valueOf operand = .ok v ∧ text = v.printed newline) := by
  have hprinted : ∀ effect, statement.effect session.environment = .ok effect →
      effect.text = "" ∨ ∃ operand ∈ statement.resolved, ∃ v newline,
        session.environment.valueOf operand = .ok v ∧ effect.text = v.printed newline := by
    intro effect heffect
    rcases effect_cases statement _ effect heffect with ⟨_, rfl⟩ | ⟨_, _, _, _, _, rfl⟩ |
      ⟨operand, newline, v, hform, hv, rfl⟩ | ⟨_, _, _, _, _, _, _, _, rfl⟩
    · exact Or.inl rfl
    · exact Or.inl rfl
    · refine Or.inr ⟨operand, ?_, v, newline, hv, rfl⟩
      rw [resolved, hform]
      exact List.mem_singleton_self operand
    · exact Or.inl rfl
  rcases statement.eval_cases session with ⟨fault, _, heval⟩ | ⟨effect, heffect, heval⟩ |
    ⟨effect, heffect, _, heval⟩
  · -- Operands come first, so a fault of theirs comes before any output.
    rw [heval]
    exact ⟨"", session.output.write_empty.symm, Or.inl rfl⟩
  · rw [heval]
    exact ⟨effect.text, rfl, hprinted effect heffect⟩
  · rw [heval]
    exact ⟨effect.text, rfl, hprinted effect heffect⟩

/-- A statement leaves the variables alone, or it binds one of them to the value of
    an operand. -/
theorem environment_eval_cases (statement : Statement) (session : Session) :
    (statement.eval session).session.environment = session.environment ∨
    ∃ target source v, statement.form? = some (.bind target source) ∧
      session.environment.valueOf source = .ok v ∧
      (statement.eval session).session.environment = session.environment.insert target v := by
  rcases statement.eval_cases session with ⟨_, _, heval⟩ | ⟨effect, heffect, heval⟩ |
    ⟨_, _, _, heval⟩
  · rw [heval]
    exact Or.inl rfl
  · rw [heval]
    -- Of the statements without a fault only a binding changes the variables.
    rcases binding_cases statement _ effect heffect with ⟨_, hbinding⟩ |
      ⟨target, source, v, hform, _, hv, hbinding⟩
    · exact Or.inl (Environment.after_of_binding_eq_none _ effect hbinding)
    · exact Or.inr ⟨target, source, v, hform, hv,
        Environment.after_of_binding_eq_some _ effect target v hbinding⟩
  · rw [heval]
    exact Or.inl rfl

/-- A statement that meets a fault binds nothing. -/
theorem environment_eval_of_fault (statement : Statement) (session : Session) (fault : Fault)
    (h : (statement.eval session).answer = .error fault) :
    (statement.eval session).session.environment = session.environment := by
  -- A fault comes in front of every effect, or with a text, which binds nothing.
  rcases statement.eval_cases session with ⟨_, _, heval⟩ | ⟨_, _, heval⟩ | ⟨_, _, _, heval⟩
  · rw [heval]
    rfl
  · rw [heval] at h
    exact absurd h (by simp only [reduceCtorEq, not_false_eq_true])
  · rw [heval]
    rfl

/-- The variables behind a run are those that the executed statements leave,
    whatever the fault that ends it. -/
theorem environment_evalAll_eq_executed (statements : List Statement) (session : Session) :
    (evalAll statements session).session.environment =
      (evalAll (executed statements session) session).session.environment := by
  rcases executed_spec statements session with ⟨hdone, rest, hsplit, hend⟩
  -- Behind what is executed there is nothing, or the statement with the fault.
  rcases hend with rfl | ⟨statement, after, fault, rfl, hfault⟩
  · rw [List.append_nil] at hsplit
    rw [← hsplit]
  · generalize executed statements session = before at hdone hsplit hfault ⊢
    rw [hsplit, evalAll_of_fault before after statement session fault hdone hfault]
    exact environment_eval_of_fault statement _ fault hfault

/-- An operator answers once both its operands have values. -/
theorem answer_eval_of_compute (statement : Statement) (session : Session) (op : Operator)
    (left right : Located Operand) (l r : Value)
    (hform : statement.form? = some (.compute op left right))
    (hl : session.environment.valueOf left = .ok l)
    (hr : session.environment.valueOf right = .ok r) :
    (statement.eval session).answer = .ok (op.answer? l r) := by
  have heffect : statement.effect session.environment = .ok { answer := op.answer? l r } := by
    simp only [effect, hform, Command.effect, hl, hr, Except.bind, Except.map]
  rw [eval_of_accepts statement session _ heffect (Sink.accepts_empty session.output)]

/-- An operator leaves the session as it is, even if an operand is at fault. -/
theorem session_eval_of_compute (statement : Statement) (session : Session) (op : Operator)
    (left right : Located Operand) (hform : statement.form? = some (.compute op left right)) :
    (statement.eval session).session = session := by
  cases heffect : statement.effect session.environment with
  | error fault =>
      rw [eval_of_effect_error statement session fault heffect]
      rfl
  | ok effect =>
      -- The form is that of an operator, so three of the cases cannot be.
      rcases effect_cases statement _ effect heffect with ⟨hnone, _⟩ | ⟨_, _, _, hbind, _⟩ |
        ⟨_, _, _, hwrite, _⟩ | ⟨_, _, _, l, r, _, _, _, rfl⟩
      · exact absurd (hform.symm.trans hnone) (by simp only [reduceCtorEq, not_false_eq_true])
      · exact absurd (hform.symm.trans hbind) (by
          simp only [Option.some.injEq, reduceCtorEq, not_false_eq_true])
      · exact absurd (hform.symm.trans hwrite) (by
          simp only [Option.some.injEq, reduceCtorEq, not_false_eq_true])
      · rw [eval_of_accepts statement session _ heffect (Sink.accepts_empty session.output),
          Sink.write_empty]
        rfl

/-- Only operators produce values. -/
theorem exists_compute_of_answer_eval (statement : Statement) (session : Session) (v : Value)
    (h : (statement.eval session).answer = .ok (some v)) :
    ∃ op left right l r, statement.form? = some (.compute op left right) ∧
      session.environment.valueOf left = .ok l ∧ session.environment.valueOf right = .ok r ∧
      op.answer? l r = some v := by
  rcases exists_effect_of_completed statement session ⟨_, h⟩ with ⟨effect, heffect, heval⟩
  rw [heval, Except.ok.injEq] at h
  -- The effects of the other forms have no answer.
  rcases effect_cases statement _ effect heffect with ⟨_, rfl⟩ | ⟨_, _, _, _, _, rfl⟩ |
    ⟨_, _, _, _, _, rfl⟩ | ⟨op, left, right, l, r, hform, hl, hr, rfl⟩
  · exact absurd h (by simp only [reduceCtorEq, not_false_eq_true])
  · exact absurd h (by simp only [reduceCtorEq, not_false_eq_true])
  · exact absurd h (by simp only [reduceCtorEq, not_false_eq_true])
  · exact ⟨op, left, right, l, r, hform, hl, hr, h⟩

/-- The output only grows, whatever becomes of the statements behind. -/
theorem exists_kept_evalAll_append (before after : List Statement) (session : Session) :
    ∃ bytes, (evalAll (before ++ after) session).session.output.kept =
      (evalAll before session).session.output.kept ++ bytes := by
  induction after using List.reverseRecOn with
  | nil => exact ⟨.empty, by rw [List.append_nil, ByteArray.append_empty]⟩
  | append_singleton later statement ih =>
      rcases ih with ⟨bytes, hbytes⟩
      rw [← List.append_assoc]
      -- A run that has stopped writes nothing more.
      by_cases hdone : (evalAll (before ++ later) session).Completed
      · rcases exists_output_eval statement (evalAll (before ++ later) session).session with
          ⟨text, htext, _⟩
        rcases Sink.exists_kept_write (evalAll (before ++ later) session).session.output text with
          ⟨more, hmore⟩
        refine ⟨bytes ++ more, ?_⟩
        rw [session_evalAll_concat _ statement session hdone, htext, hmore, hbytes,
          ByteArray.append_assoc]
      · refine ⟨bytes, ?_⟩
        rw [evalAll_concat_of_not_completed _ statement session hdone, hbytes]

theorem room_eval_of_unlimited (statement : Statement) (session : Session)
    (h : session.output.room = none) :
    (statement.eval session).session.output.room = none := by
  rcases exists_output_eval statement session with ⟨text, htext, _⟩
  rw [htext]
  simp only [Sink.write, h]

theorem room_evalAll_of_unlimited (statements : List Statement) (session : Session)
    (h : session.output.room = none) :
    (evalAll statements session).session.output.room = none :=
  session_evalAll_of_invariant (fun reached => reached.output.room = none) statements session h
    fun statement _ reached hreached => room_eval_of_unlimited statement reached hreached

theorem eval_of_unlimited (statement : Statement) (session : Session) (effect : Effect)
    (hroom : session.output.room = none)
    (h : statement.effect session.environment = .ok effect) :
    statement.eval session =
      ⟨.ok effect.answer,
        ⟨session.environment.after effect, session.output.write effect.text⟩⟩ := by
  refine eval_of_accepts statement session effect h ?_
  simp only [Sink.accepts, hroom]

/-- On an output without limit the faults of a statement are those of its
    operands. -/
theorem answer_eval_eq_error_iff_of_unlimited (statement : Statement) (session : Session)
    (fault : Fault) (hroom : session.output.room = none) :
    (statement.eval session).answer = .error fault ↔
      statement.effect session.environment = .error fault := by
  cases heffect : statement.effect session.environment with
  | error first =>
      rw [eval_of_effect_error statement session first heffect]
      simp only [Outcome.stopped, Except.error.injEq]
  | ok effect =>
      rw [eval_of_unlimited statement session effect hroom heffect]
      simp only [reduceCtorEq]

theorem completed_eval_iff_of_unlimited (statement : Statement) (session : Session)
    (hroom : session.output.room = none) :
    (statement.eval session).Completed ↔
      ∃ effect, statement.effect session.environment = .ok effect := by
  cases heffect : statement.effect session.environment with
  | error fault =>
      rw [eval_of_effect_error statement session fault heffect]
      simp only [Outcome.Completed, Outcome.stopped, reduceCtorEq, exists_false]
  | ok effect =>
      rw [eval_of_unlimited statement session effect hroom heffect]
      simp only [Outcome.Completed, Except.ok.injEq, exists_eq']

/-- On an output without limit a fault leaves no trace, so a run ends in the
    session that the executed statements have reached. -/
theorem session_evalAll_of_unlimited (statements : List Statement) (session : Session)
    (hroom : session.output.room = none) :
    (evalAll statements session).session =
      (evalAll (executed statements session) session).session := by
  rcases executed_spec statements session with ⟨hdone, rest, hsplit, hend⟩
  rcases hend with rfl | ⟨statement, after, fault, rfl, hfault⟩
  · rw [List.append_nil] at hsplit
    rw [← hsplit]
  · generalize executed statements session = before at hdone hsplit hfault ⊢
    -- The fault is that of an operand, so the statement leaves the session alone.
    have hunlimited := room_evalAll_of_unlimited before session hroom
    have heffect :=
      (answer_eval_eq_error_iff_of_unlimited statement _ fault hunlimited).mp hfault
    rw [hsplit, evalAll_of_fault before after statement session fault hdone hfault,
      eval_of_effect_error statement _ fault heffect]
    rfl

end Statement

end PrefixScript
