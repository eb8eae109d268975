import Mathlib.Data.List.Infix
import PrefixScript.Proofs.Scope

/-!
# Tracing

What a script does, found without keeping any variables.

To know the value of a name it is not necessary to have carried it along from
its binding. One can also go back: the latest binding of the name in front of
the place where it is used says where its value came from, and from there the
search goes on, in front of that binding, until it ends at a literal. A script
has no memory in this reading, only a history, and every operand starts a search
of its own.

The two readings agree. Going forward, a binding replaces what its name was
bound to; going back, it hides what lies before it. That a binding copies a
value is what makes the search right to go on in front of the binding and not in
front of the use: later bindings of the source no longer matter.

## Main definitions

* `traceBack`, `traced?`: The value of an operand, by the latest bindings.
* `tracedText`, `tracedAnswer`: What a statement prints and answers.
* `steps`: The statements, each with those before it.
* `tracedOutput`, `tracedResult`: What statements print and answer in all.

## Theorems

* `traced?_of_latest`: A name is traced to the source of its latest binding.
* `steps_concat`: The steps, statement by statement.
* `get?_evalAll_eq_traced?`: The variables of a session are the traced names.
* `kept_evalAll_eq_traced`, `answer_evalAll_eq_traced`: A completed run prints and
  answers what is traced.
* `ofTokens_eq_traced`: Running a script forward is tracing it back.
-/

namespace PrefixScript

namespace Statement

/-- The value of an operand behind the given statements, the latest of which
    comes first. -/
def traceBack : List Statement → Operand → Option Value
  | _, .literal v => some v
  | _, .oversized _ => none
  | [], .name _ => none
  | statement :: earlier, .name x =>
    match statement.form? with
    | some (.bind target source) =>
      if target = x then traceBack earlier source.item else traceBack earlier (.name x)
    | _ => traceBack earlier (.name x)

/-- The value of an operand behind the given statements. -/
def traced? (before : List Statement) (operand : Operand) : Option Value :=
  traceBack before.reverse operand

/-- What a statement prints behind the given ones. -/
def tracedText (before : List Statement) (statement : Statement) : String :=
  match statement.form? with
  | some (.write operand newline) =>
    match traced? before operand.item with
    | some v => v.printed newline
    | none => ""
  | _ => ""

/-- What a statement answers behind the given ones. -/
def tracedAnswer (before : List Statement) (statement : Statement) : Option Value :=
  match statement.form? with
  | some (.compute op left right) =>
    match traced? before left.item, traced? before right.item with
    | some l, some r => op.answer? l r
    | _, _ => none
  | _ => none

/-- The statements in order, each with those before it. -/
def steps (statements : List Statement) : List (List Statement × Statement) :=
  statements.inits.zip statements

/-- All that the statements print. -/
def tracedOutput (statements : List Statement) : String :=
  String.join ((steps statements).map fun (before, statement) => tracedText before statement)

/-- The last answer that any of the statements gives. -/
def tracedResult (statements : List Statement) : Option Value :=
  ((steps statements).filterMap fun (before, statement) => tracedAnswer before statement).getLast?

@[simp] theorem traced?_literal (before : List Statement) (v : Value) :
    traced? before (.literal v) = some v := by
  unfold traced?
  cases before.reverse <;> rfl

@[simp] theorem traced?_oversized (before : List Statement) (digits : String) :
    traced? before (.oversized digits) = none := by
  unfold traced?
  cases before.reverse <;> rfl

theorem traced?_concat_of_bind (before : List Statement) (statement : Statement) (x : String)
    (source : Located Operand) (h : statement.form? = some (.bind x source)) :
    traced? (before ++ [statement]) (.name x) = traced? before source.item := by
  rw [traced?, List.reverse_append, List.reverse_singleton, List.singleton_append, traceBack, h]
  exact if_pos rfl

theorem traced?_concat_of_target?_ne (before : List Statement) (statement : Statement)
    (x : String) (h : statement.target? ≠ some x) :
    traced? (before ++ [statement]) (.name x) = traced? before (.name x) := by
  rw [traced?, List.reverse_append, List.reverse_singleton, List.singleton_append, traceBack]
  split
  · -- A binding of some other name is passed over.
    rename_i target source hform
    refine if_neg fun htarget => h ?_
    rw [target?, hform, Option.bind_some, Command.target?, htarget]
  · rfl

/-- A name is traced to the source of its latest binding. -/
theorem traced?_of_latest (before between : List Statement) (statement : Statement) (x : String)
    (source : Located Operand) (h : statement.form? = some (.bind x source))
    (hbetween : ¬ Bound between x) :
    traced? (before ++ statement :: between) (.name x) = traced? before source.item := by
  -- Back over the statements between, none of which binds the name.
  induction between using List.reverseRecOn with
  | nil => exact traced?_concat_of_bind before statement x source h
  | append_singleton earlier last ih =>
      rw [bound_concat_iff, not_or] at hbetween
      rw [← List.cons_append, ← List.append_assoc, traced?_concat_of_target?_ne _ last x hbetween.2]
      exact ih hbetween.1

theorem steps_concat (before : List Statement) (statement : Statement) :
    steps (before ++ [statement]) = steps before ++ [(before, statement)] := by
  -- From the front, where each further statement goes in front of all prefixes.
  unfold steps
  induction before with
  | nil => rfl
  | cons first rest ih =>
      rw [List.cons_append, List.inits_cons, List.inits_cons, List.zip_cons_cons,
        List.zip_cons_cons, List.zip_map_left, List.zip_map_left, ih, List.map_append]
      rfl

theorem tracedOutput_concat (before : List Statement) (statement : Statement) :
    tracedOutput (before ++ [statement]) = tracedOutput before ++ tracedText before statement := by
  rw [tracedOutput, steps_concat, List.map_append, String.join_append]
  simp only [List.map_cons, List.map_nil, String.join_cons, String.join_nil, String.append_empty]
  rfl

theorem tracedResult_concat (before : List Statement) (statement : Statement) :
    tracedResult (before ++ [statement]) =
      (tracedAnswer before statement).or (tracedResult before) := by
  rw [tracedResult, steps_concat, List.filterMap_append]
  -- The last step comes last, so its answer counts if there is one.
  cases hanswer : tracedAnswer before statement with
  | none => simp only [List.filterMap_cons, List.filterMap_nil, hanswer, List.append_nil,
      Option.none_or, tracedResult]
  | some v => simp only [List.filterMap_cons, List.filterMap_nil, hanswer, Option.some_or,
      List.getLast?_append, List.getLast?_singleton]

/-- An operand has the value it is traced to, if the names do. -/
theorem valueOf_eq_ok_iff (before : List Statement) (env : Environment)
    (henv : ∀ name, env.get? name = traced? before (.name name)) (operand : Located Operand)
    (v : Value) : env.valueOf operand = .ok v ↔ traced? before operand.item = some v := by
  rcases operand with ⟨item, line⟩
  cases item with
  | literal w => simp only [Environment.valueOf, Except.ok.injEq, traced?_literal, Option.some.injEq]
  | oversized digits => simp only [Environment.valueOf, reduceCtorEq, traced?_oversized]
  | name x =>
      simp only [Environment.valueOf, ← henv]
      -- A name has what it is traced to, or neither has anything.
      cases env.get? x with
      | none => simp only [reduceCtorEq]
      | some w => simp only [Except.ok.injEq, Option.some.injEq]

/-- The invariant of tracing is kept by a statement: one more binding at the end
    of the history does to the traced names what the effect does to the
    variables. -/
theorem get?_after_eq_traced? (before : List Statement) (statement : Statement)
    (env : Environment) (effect : Effect)
    (henv : ∀ name, env.get? name = traced? before (.name name))
    (h : statement.effect env = .ok effect) (name : String) :
    (env.after effect).get? name = traced? (before ++ [statement]) (.name name) := by
  by_cases htarget : statement.target? = some name
  · rcases get?_after_of_target? statement env effect name h htarget with
      ⟨source, v, hform, hv, hget⟩
    -- The source is traced in front of the binding, where it has the value bound.
    rw [hget env, traced?_concat_of_bind before statement name source hform,
      (valueOf_eq_ok_iff before env henv source v).mp hv]
  · rw [get?_after_of_target?_ne statement env effect name h htarget env,
      traced?_concat_of_target?_ne before statement name htarget]
    exact henv name

theorem text_eq_tracedText (before : List Statement) (statement : Statement)
    (env : Environment) (effect : Effect)
    (henv : ∀ name, env.get? name = traced? before (.name name))
    (h : statement.effect env = .ok effect) : effect.text = tracedText before statement := by
  rcases effect_cases statement env effect h with ⟨hform, rfl⟩ | ⟨target, source, v, hform, _, rfl⟩ |
    ⟨operand, newline, v, hform, hv, rfl⟩ | ⟨op, left, right, l, r, hform, _, _, rfl⟩
  · simp only [tracedText, hform]
  · simp only [tracedText, hform]
  · simp only [tracedText, hform, (valueOf_eq_ok_iff before env henv operand v).mp hv]
  · simp only [tracedText, hform]

theorem answer_eq_tracedAnswer (before : List Statement) (statement : Statement)
    (env : Environment) (effect : Effect)
    (henv : ∀ name, env.get? name = traced? before (.name name))
    (h : statement.effect env = .ok effect) : effect.answer = tracedAnswer before statement := by
  rcases effect_cases statement env effect h with ⟨hform, rfl⟩ | ⟨target, source, v, hform, _, rfl⟩ |
    ⟨operand, newline, v, hform, _, rfl⟩ | ⟨op, left, right, l, r, hform, hl, hr, rfl⟩
  · simp only [tracedAnswer, hform]
  · simp only [tracedAnswer, hform]
  · simp only [tracedAnswer, hform]
  · simp only [tracedAnswer, hform, (valueOf_eq_ok_iff before env henv left l).mp hl,
      (valueOf_eq_ok_iff before env henv right r).mp hr]

/-- The variables of a script are its traced names. -/
theorem get?_evalAll_eq_traced? (statements : List Statement) (output : Sink)
    (h : (evalAll statements (Session.start output)).Completed) (name : String) :
    (evalAll statements (Session.start output)).session.environment.get? name =
      traced? statements (.name name) := by
  induction statements using List.reverseRecOn generalizing name with
  | nil => exact Environment.get?_empty name
  | append_singleton before statement ih =>
      rcases exists_effect_of_completed_concat before statement _ h with
        ⟨hbefore, effect, heffect, hsession⟩
      -- The last effect is put on variables that are already what is traced.
      rw [hsession]
      exact get?_after_eq_traced? before statement _ effect (ih hbefore) heffect name

theorem kept_evalAll_eq_traced (statements : List Statement) (output : Sink)
    (hroom : output.room = none)
    (h : (evalAll statements (Session.start output)).Completed) :
    (evalAll statements (Session.start output)).session.output.kept =
      output.kept ++ (tracedOutput statements).toUTF8 := by
  induction statements using List.reverseRecOn with
  | nil => exact ByteArray.append_empty.symm
  | append_singleton before statement ih =>
      rcases exists_effect_of_completed_concat before statement _ h with
        ⟨hbefore, effect, heffect, hsession⟩
      have hunlimited := room_evalAll_of_unlimited before (Session.start output) hroom
      -- The operand is resolved in variables that are traced names.
      have henv := get?_evalAll_eq_traced? before output hbefore
      rw [hsession, Sink.kept_write_of_unlimited _ _ hunlimited, ih hbefore, tracedOutput_concat,
        text_eq_tracedText before statement _ effect henv heffect]
      simp only [String.toUTF8_eq_toByteArray, String.toByteArray_append, ByteArray.append_assoc]

theorem answer_evalAll_eq_traced (statements : List Statement) (output : Sink)
    (h : (evalAll statements (Session.start output)).Completed) :
    (evalAll statements (Session.start output)).answer = .ok (tracedResult statements) := by
  induction statements using List.reverseRecOn with
  | nil => rfl
  | append_singleton before statement ih =>
      rcases (completed_evalAll_concat_iff before statement _).mp h with ⟨hbefore, hlast⟩
      rcases exists_effect_of_completed statement _ hlast with ⟨effect, heffect, heval⟩
      -- The answer depends on operands, and so on variables that are traced names.
      have henv := get?_evalAll_eq_traced? before output hbefore
      rw [evalAll_concat, Outcome.andThen_of_ok _ _ _ (ih hbefore), heval, tracedResult_concat,
        answer_eq_tracedAnswer before statement _ effect henv heffect]
      rfl

/-- Whatever a statement needs before it takes effect is traced to what it is
    then. -/
theorem traced?_of_completed_concat (before : List Statement) (statement : Statement)
    (output : Sink)
    (h : (evalAll (before ++ [statement]) (Session.start output)).Completed)
    (operand : Located Operand) (hoperand : operand ∈ statement.resolved) :
    ∃ v, (evalAll before (Session.start output)).session.environment.valueOf operand = .ok v ∧
      traced? before operand.item = some v := by
  rcases exists_effect_of_completed_concat before statement _ h with ⟨hbefore, effect, heffect, _⟩
  have henv := get?_evalAll_eq_traced? before output hbefore
  have hnone := (exists_effect_iff statement _).mp ⟨effect, heffect⟩ operand hoperand
  cases hv : (evalAll before (Session.start output)).session.environment.valueOf operand with
  | error fault =>
      -- A statement that has an effect has no operand with a fault.
      rw [Environment.fault?, hv] at hnone
      exact absurd hnone (by simp only [reduceCtorEq, not_false_eq_true])
  | ok v =>
      exact ⟨v, rfl, (valueOf_eq_ok_iff before _ henv operand v).mp hv⟩

end Statement

namespace Outcome

/-- Running a script forward and tracing it back agree, on an output that takes
    everything: on the value of every operand that an executed statement needs,
    on what is printed, on the variables in the end, and on the answer. -/
theorem ofTokens_eq_traced (tokens : List (Located Token)) (output : Sink)
    (hroom : output.room = none) :
    let statements := Statement.ofTokens tokens
    let executed := Statement.executed statements (Session.start output)
    let outcome := ofTokens tokens output
    (∀ before statement after, executed = before ++ statement :: after →
      ∀ operand ∈ statement.resolved, ∃ v,
        (Statement.evalAll before (Session.start output)).session.environment.valueOf operand =
          .ok v ∧ Statement.traced? before operand.item = some v) ∧
    outcome.session.output.kept =
      output.kept ++ (Statement.tracedOutput executed).toUTF8 ∧
    (∀ name, (∃ v, outcome.session.environment.get? name = some v) ↔
      ∃ statement ∈ executed, statement.target? = some name) ∧
    (∀ before statement after name source, executed = before ++ statement :: after →
      statement.form? = some (.bind name source) →
      (∀ later ∈ after, later.target? ≠ some name) →
      ∃ v, outcome.session.environment.get? name = some v ∧
        Statement.traced? before source.item = some v) ∧
    (∀ value, outcome.answer = .ok value → value = Statement.tracedResult statements) := by
  intro statements executed outcome
  -- All but the answer is about the executed statements, which run to their end.
  have hdone : (Statement.evalAll executed (Session.start output)).Completed :=
    (Statement.executed_spec statements (Session.start output)).1
  have hsession : outcome.session = (Statement.evalAll executed (Session.start output)).session :=
    Statement.session_evalAll_of_unlimited statements (Session.start output) hroom
  have hoperands : ∀ before statement after, executed = before ++ statement :: after →
      ∀ operand ∈ statement.resolved, ∃ v,
        (Statement.evalAll before (Session.start output)).session.environment.valueOf operand =
          .ok v ∧ Statement.traced? before operand.item = some v := by
    intro before statement after hsplit operand hoperand
    rw [hsplit, List.append_cons] at hdone
    exact Statement.traced?_of_completed_concat before statement output
      (Statement.completed_of_completed_append _ after _ hdone) operand hoperand
  refine ⟨hoperands, ?_, fun name => ?_, ?_, fun value hvalue => ?_⟩
  · rw [hsession]
    exact Statement.kept_evalAll_eq_traced executed output hroom hdone
  · rw [hsession]
    exact Statement.exists_get?_start_iff executed output hdone name
  · intro before statement after name source hsplit hform hlatest
    have hresolved : source ∈ statement.resolved := by
      simp only [Statement.resolved, hform, Command.operands, List.mem_singleton]
    rcases hoperands before statement after hsplit source hresolved with ⟨v, _, hv⟩
    refine ⟨v, ?_, hv⟩
    have hafter : ¬ Statement.Bound after name := by
      rintro ⟨later, hlater, htarget⟩
      exact hlatest later hlater htarget
    rw [hsession, Statement.get?_evalAll_eq_traced? executed output hdone name, hsplit,
      Statement.traced?_of_latest before after statement name source hform hafter, hv]
  · -- An answer means that there was no fault, so all statements are executed.
    have hall : (Statement.evalAll statements (Session.start output)).Completed := ⟨value, hvalue⟩
    have htraced := Statement.answer_evalAll_eq_traced statements output hall
    exact Except.ok.inj (hvalue.symm.trans htraced)

/-- A binding copies: `y` is bound to the value that `x` had then, which is
    printed although `x` is bound anew in between. -/
theorem kept_of_copied_binding :
    Sink.unlimited.room = none ∧
    (ofTokens
      [⟨.keyword .bind, 1⟩, ⟨.identifier "x", 1⟩, ⟨.literal (.int 7), 1⟩, ⟨.separator, 1⟩,
       ⟨.keyword .bind, 2⟩, ⟨.identifier "y", 2⟩, ⟨.identifier "x", 2⟩, ⟨.separator, 2⟩,
       ⟨.keyword .bind, 3⟩, ⟨.identifier "x", 3⟩, ⟨.literal (.bool true), 3⟩, ⟨.separator, 3⟩,
       ⟨.keyword .println, 4⟩, ⟨.identifier "y", 4⟩, ⟨.separator, 4⟩]
      .unlimited).session.output.kept = "7\n".toUTF8 := by
  refine ⟨rfl, ?_⟩
  rw [(ofTokens_eq_traced _ .unlimited rfl).2.1]
  decide +kernel

end Outcome

end PrefixScript
