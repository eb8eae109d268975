import PrefixScript.Proofs.Run
import PrefixScript.Script

/-!
# Scope

Which scripts run to their end, told without running them.

A script can only fail at an operand that has no value, as long as its output
takes everything. Whether an operand has a value can be read off the statements
before its own: a literal always has one, an oversized literal never, and a name
has one if some statement before binds it. The value itself plays no part. So a
script runs to its end if and only if it is well scoped, and otherwise the first
operand in the order of the tokens that is not grounded tells which fault there
is and on which line.

The run and the scan meet in one invariant: the names that are bound after some
statements are the targets of those statements. It holds as long as there was no
fault, which is exactly as long as the statements were well scoped, and that is
why both are proved along the same induction.

## Main definitions

* `Bound`: Some statement binds a name.
* `Grounded`: An operand has a value after some statements.
* `WellScoped`: Every operand that is needed is grounded by the statements before
  its own.
* `FirstOffence`: The first operand that is not grounded.
* `Located.offence?`: The fault that an operand causes if it is not grounded.

## Theorems

* `exists_get?_evalAll_iff`: What is bound after a completed run.
* `fault?_eq_none_iff`, `fault?_eq_some_iff`: Being grounded is having a value,
  and not being grounded is an offence.
* `wellScoped_concat_iff`: Being well scoped, statement by statement.
* `completed_evalAll_iff`: A run completes if its statements are well scoped.
* `answer_ofTokens_iff`: A script runs to its end if it is well scoped, and fails
  with its first offence if not.
-/

namespace PrefixScript

/-- The fault that is reported for an operand that has no value. Literals always
    have one. -/
def Located.offence? (operand : Located Operand) : Option Fault :=
  match operand.item with
  | .literal _ => none
  | .name x => some ⟨.unknownVariable x, operand.line⟩
  | .oversized digits => some ⟨.literalTooLarge digits, operand.line⟩

namespace Statement

/-- Some of the statements binds the name. -/
def Bound (before : List Statement) (name : String) : Prop :=
  ∃ statement ∈ before, statement.target? = some name

/-- The operand has a value after the statements: it is a literal, or one of them
    binds it. -/
def Grounded (before : List Statement) : Operand → Prop
  | .literal _ => True
  | .name x => Bound before x
  | .oversized _ => False

/-- Every operand that a statement needs is grounded by the statements before. -/
def WellScoped (statements : List Statement) : Prop :=
  ∀ before statement after, statements = before ++ statement :: after →
    ∀ operand ∈ statement.resolved, Grounded before operand.item

/-- The operand is needed and not grounded, while all that are needed before it
    are: those of earlier statements, and those in front of it in its own. -/
def FirstOffence (statements : List Statement) (operand : Located Operand) : Prop :=
  ∃ before statement after sooner later,
    statements = before ++ statement :: after ∧
    statement.resolved = sooner ++ operand :: later ∧
    WellScoped before ∧ (∀ other ∈ sooner, Grounded before other.item) ∧
    ¬ Grounded before operand.item

theorem bound_concat_iff (before : List Statement) (statement : Statement) (name : String) :
    Bound (before ++ [statement]) name ↔
      Bound before name ∨ statement.target? = some name := by
  simp only [Bound, List.mem_append, List.mem_singleton, or_and_right, exists_or, exists_eq_left]

theorem wellScoped_nil : WellScoped [] := by
  intro before statement after h
  exact absurd h.symm (by simp only [List.append_eq_nil_iff, reduceCtorEq, and_false,
    not_false_eq_true])

theorem wellScoped_concat_iff (before : List Statement) (statement : Statement) :
    WellScoped (before ++ [statement]) ↔
      WellScoped before ∧ ∀ operand ∈ statement.resolved, Grounded before operand.item := by
  constructor
  · -- A statement before the last one is one of them all.
    intro h
    refine ⟨fun earlier other after hsplit => ?_, h before statement [] rfl⟩
    refine h earlier other (after ++ [statement]) ?_
    rw [hsplit, List.append_assoc, List.cons_append]
  · rintro ⟨hbefore, hlast⟩ earlier other after hsplit
    rcases List.eq_nil_or_concat after with rfl | ⟨after', last, rfl⟩
    · -- The split is at the last statement.
      rcases List.append_inj' hsplit rfl with ⟨rfl, hother⟩
      rw [List.cons.injEq] at hother
      rw [← hother.1]
      exact hlast
    · refine hbefore earlier other after' ?_
      rw [List.concat_eq_append, ← List.cons_append, ← List.append_assoc] at hsplit
      exact (List.append_inj' hsplit rfl).1

/-- An effect binds the target of its statement and nothing else. -/
theorem exists_get?_after_iff (statement : Statement) (env : Environment) (effect : Effect)
    (name : String) (h : statement.effect env = .ok effect) :
    (∃ v, (env.after effect).get? name = some v) ↔
      (∃ v, env.get? name = some v) ∨ statement.target? = some name := by
  by_cases htarget : statement.target? = some name
  · rcases get?_after_of_target? statement env effect name h htarget with ⟨_, v, _, _, hget⟩
    exact ⟨fun _ => Or.inr htarget, fun _ => ⟨v, hget env⟩⟩
  · rw [get?_after_of_target?_ne statement env effect name h htarget env, or_iff_left htarget]

/-- What is bound after a completed run: what was bound before it, and the
    targets of its statements. -/
theorem exists_get?_evalAll_iff (statements : List Statement) (session : Session)
    (name : String) (h : (evalAll statements session).Completed) :
    (∃ v, (evalAll statements session).session.environment.get? name = some v) ↔
      (∃ v, session.environment.get? name = some v) ∨ Bound statements name := by
  induction statements using List.reverseRecOn with
  | nil => simp only [evalAll_nil, Outcome.idle, Bound, List.not_mem_nil, false_and, exists_false,
      or_false]
  | append_singleton before statement ih =>
      rcases exists_effect_of_completed_concat before statement session h with
        ⟨hbefore, effect, heffect, hsession⟩
      -- The last statement adds its target to the names that are bound.
      rw [hsession, bound_concat_iff, ← or_assoc, ← ih hbefore]
      exact exists_get?_after_iff statement _ effect name heffect

/-- An operand has a value in a session exactly if it is grounded by the
    statements that led there. -/
theorem fault?_eq_none_iff (before : List Statement) (env : Environment)
    (henv : ∀ name, (∃ v, env.get? name = some v) ↔ Bound before name)
    (operand : Located Operand) :
    env.fault? operand = none ↔ Grounded before operand.item := by
  rcases operand with ⟨item, line⟩
  cases item with
  | literal v => simp only [Environment.fault?, Environment.valueOf, Grounded]
  | oversized digits => simp only [Environment.fault?, Environment.valueOf, reduceCtorEq, Grounded]
  | name x =>
      simp only [Environment.fault?, Environment.valueOf, Grounded, ← henv]
      -- A name is grounded if it is bound so far, and then it has a value.
      cases env.get? x with
      | none => simp only [reduceCtorEq, exists_false]
      | some v => simp only [Option.some.injEq, exists_eq']

/-- The fault of an operand is its offence, and it is one only if the operand is
    not grounded. -/
theorem fault?_eq_some_iff (before : List Statement) (env : Environment)
    (henv : ∀ name, (∃ v, env.get? name = some v) ↔ Bound before name)
    (operand : Located Operand) (fault : Fault) :
    env.fault? operand = some fault ↔
      ¬ Grounded before operand.item ∧ operand.offence? = some fault := by
  -- Not to be grounded is to be at fault, and the fault is the offence.
  rw [← fault?_eq_none_iff before env henv operand]
  rcases operand with ⟨item, line⟩
  cases item with
  | literal v => simp only [Environment.fault?, Environment.valueOf, reduceCtorEq,
      not_true_eq_false, false_and]
  | oversized digits => simp only [Environment.fault?, Environment.valueOf, Located.offence?,
      Option.some.injEq, reduceCtorEq, not_false_eq_true, true_and]
  | name x =>
      simp only [Environment.fault?, Environment.valueOf, Located.offence?]
      cases env.get? x with
      | none => simp only [Option.some.injEq, reduceCtorEq, not_false_eq_true, true_and]
      | some v => simp only [reduceCtorEq, not_true_eq_false, false_and]

/-- When a statement of a script comes up, the names that are bound are the
    targets of those before it. -/
theorem exists_get?_start_iff (before : List Statement) (output : Sink)
    (h : (evalAll before (Session.start output)).Completed) (name : String) :
    (∃ v, (evalAll before (Session.start output)).session.environment.get? name = some v) ↔
      Bound before name := by
  rw [exists_get?_evalAll_iff before _ name h]
  -- A script starts without variables.
  simp only [Session.start, Environment.get?_empty, reduceCtorEq, exists_false, false_or]

theorem completed_evalAll_iff (statements : List Statement) (output : Sink)
    (hroom : output.room = none) :
    (evalAll statements (Session.start output)).Completed ↔ WellScoped statements := by
  induction statements using List.reverseRecOn with
  | nil => exact ⟨fun _ => wellScoped_nil, fun _ => ⟨none, rfl⟩⟩
  | append_singleton before statement ih =>
      -- The names in scope of the last statement are known if those before it ran.
      rw [completed_evalAll_concat_iff, wellScoped_concat_iff, ih]
      refine and_congr_right fun hbefore => ?_
      have hbound := exists_get?_start_iff before output (ih.mpr hbefore)
      have hunlimited := room_evalAll_of_unlimited before (Session.start output) hroom
      rw [completed_eval_iff_of_unlimited statement _ hunlimited, exists_effect_iff]
      exact forall₂_congr fun operand _ => fault?_eq_none_iff before _ hbound operand

/-- The fault of a statement is the offence of its first operand that is not
    grounded by the statements before. -/
theorem answer_eval_start_eq_error_iff (before : List Statement) (statement : Statement)
    (output : Sink) (fault : Fault) (hroom : output.room = none)
    (hdone : (evalAll before (Session.start output)).Completed) :
    (statement.eval (evalAll before (Session.start output)).session).answer = .error fault ↔
      ∃ sooner operand later, statement.resolved = sooner ++ operand :: later ∧
        (¬ Grounded before operand.item ∧ operand.offence? = some fault) ∧
        ∀ other ∈ sooner, Grounded before other.item := by
  have hbound := exists_get?_start_iff before output hdone
  have hunlimited := room_evalAll_of_unlimited before (Session.start output) hroom
  -- The fault is that of the first operand that has one.
  rw [answer_eval_eq_error_iff_of_unlimited statement _ fault hunlimited, effect_eq_error_iff,
    List.findSome?_eq_some_iff]
  simp only [fault?_eq_some_iff before _ hbound, fault?_eq_none_iff before _ hbound]

theorem answer_evalAll_start_eq_error_iff (statements : List Statement) (output : Sink)
    (fault : Fault) (hroom : output.room = none) :
    (evalAll statements (Session.start output)).answer = .error fault ↔
      ∃ operand, FirstOffence statements operand ∧ operand.offence? = some fault := by
  rw [answer_evalAll_eq_error_iff]
  constructor
  · rintro ⟨before, statement, after, hsplit, hdone, hfault⟩
    rcases (answer_eval_start_eq_error_iff before statement output fault hroom hdone).mp hfault with
      ⟨sooner, operand, later, hresolved, ⟨hnot, hoffence⟩, hsooner⟩
    -- The statements before have run to their end, so they are well scoped.
    have hscoped := (completed_evalAll_iff before output hroom).mp hdone
    exact ⟨operand, ⟨before, statement, after, sooner, later, hsplit, hresolved, hscoped, hsooner,
      hnot⟩, hoffence⟩
  · rintro ⟨operand, ⟨before, statement, after, sooner, later, hsplit, hresolved, hscoped, hsooner,
      hnot⟩, hoffence⟩
    -- The statements before are well scoped, so they run to their end.
    have hdone := (completed_evalAll_iff before output hroom).mpr hscoped
    refine ⟨before, statement, after, hsplit, hdone, ?_⟩
    rw [answer_eval_start_eq_error_iff before statement output fault hroom hdone]
    exact ⟨sooner, operand, later, hresolved, ⟨hnot, hoffence⟩, hsooner⟩

end Statement

namespace Outcome

/-- A script with an output that takes everything runs to its end if and only if
    it is well scoped. If it is not, its fault is the one its first offence
    causes, on the line of that very operand. -/
theorem answer_ofTokens_iff (tokens : List (Located Token)) (output : Sink)
    (hroom : output.room = none) :
    ((∃ value, (ofTokens tokens output).answer = .ok value) ↔
      Statement.WellScoped (Statement.ofTokens tokens)) ∧
    ∀ fault, (ofTokens tokens output).answer = .error fault ↔
      ∃ operand, Statement.FirstOffence (Statement.ofTokens tokens) operand ∧
        operand.offence? = some fault :=
  ⟨Statement.completed_evalAll_iff (Statement.ofTokens tokens) output hroom,
    fun fault =>
      Statement.answer_evalAll_start_eq_error_iff (Statement.ofTokens tokens) output fault hroom⟩

/-- The target of a binding is not in scope of its own source: after a binding of
    `y`, binding `x` to itself fails on the line of the second `x`. -/
theorem answer_of_self_binding :
    Sink.unlimited.room = none ∧
    (ofTokens
      [⟨.keyword .bind, 1⟩, ⟨.identifier "y", 1⟩, ⟨.literal (.bool true), 1⟩, ⟨.separator, 1⟩,
       ⟨.keyword .bind, 2⟩, ⟨.identifier "x", 2⟩, ⟨.identifier "x", 3⟩, ⟨.separator, 3⟩]
      .unlimited).answer = .error ⟨.unknownVariable "x", 3⟩ := by
  refine ⟨rfl, ((answer_ofTokens_iff _ .unlimited rfl).2 _).mpr ⟨⟨.name "x", 3⟩, ?_, rfl⟩⟩
  refine ⟨[⟨[⟨.keyword .bind, 1⟩, ⟨.identifier "y", 1⟩, ⟨.literal (.bool true), 1⟩,
    ⟨.separator, 1⟩]⟩], _, [], [], [], rfl, rfl, ?_, ?_, ?_⟩
  · refine (Statement.wellScoped_concat_iff [] _).mpr ⟨Statement.wellScoped_nil, ?_⟩
    intro operand hoperand
    rw [List.mem_singleton.mp hoperand]
    exact trivial
  · intro other hother
    exact absurd hother List.not_mem_nil
  · -- The only statement before it binds `y`.
    rintro ⟨statement, hstatement, htarget⟩
    rw [List.mem_singleton.mp hstatement] at htarget
    exact absurd htarget (by decide)

end Outcome

end PrefixScript
