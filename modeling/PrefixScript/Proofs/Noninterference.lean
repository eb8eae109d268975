import PrefixScript.Proofs.Scope

/-!
# Noninterference

Which variables a run depends on, and which it leaves alone.

A run that does not start from nothing may find variables already bound. Few of
them matter. A name is free in a list of statements if one of them needs its
value and none before binds it, and only the free names let anything from
outside into the run. Two sessions that agree on them, and have the same output,
have the same run: the same statements are executed, the answer or the fault is
the same, and so is all that is written.

The set of names that matter changes along the run. A statement that binds a
name makes the two sessions agree on it, whatever they held before, so the names
they agree on only grow; and what is free behind the statement is free in front
of it or was bound by it. That is the whole induction.

The other half is the frame. A run binds the targets of the statements it
executes, and every other name keeps what it had.

## Main definitions

* `Statement.Reads`: A statement needs the value of a name.
* `Statement.Free`: A name comes from outside.
* `Environment.AgreeOn`: Two environments give some names the same values.
* `Environment.Extends`: An environment has all the bindings of another.
* `Session.Alike`, `Outcome.Alike`: Nothing but other names tells two sessions, or
  two outcomes, apart.

## Theorems

* `free_cons_iff`: What is free, statement by statement.
* `effect_eq_of_agreeOn`: The effect of a statement depends on the names it reads.
* `eval_alike`: One statement in two sessions.
* `evalAll_alike`: A run in two sessions.
* `get?_evalAll_of_not_bound`: The frame of a run.
* `exists_get?_of_free`: A completed run has found all its free names bound.
* `evalAll_of_agreeOn_free`: A run depends on its free names, and it changes the
  targets of the statements it executes.
-/

namespace PrefixScript

namespace Environment

/-- Each of the names has the same value in both environments, or in neither
    one. -/
def AgreeOn (names : String → Prop) (env env' : Environment) : Prop :=
  ∀ name, names name → env.get? name = env'.get? name

/-- The environment has all the bindings of the other, and perhaps more. -/
def Extends (env other : Environment) : Prop :=
  ∀ name v, other.get? name = some v → env.get? name = some v

theorem AgreeOn.mono {names names' : String → Prop} {env env' : Environment}
    (h : AgreeOn names env env') (hsub : ∀ name, names' name → names name) :
    AgreeOn names' env env' :=
  fun name hname => h name (hsub name hname)

/-- An operand has the same value, or the same fault, if its name has. -/
theorem valueOf_eq_of_agree (env env' : Environment) (operand : Located Operand)
    (h : ∀ x, operand.item = .name x → env.get? x = env'.get? x) :
    env.valueOf operand = env'.valueOf operand := by
  rcases operand with ⟨item, line⟩
  cases item with
  | literal v => rfl
  | oversized digits => rfl
  | name x => simp only [valueOf, h x rfl]

end Environment

/-- Two sessions with the same output, in which the names have the same values. -/
structure Session.Alike (names : String → Prop) (session session' : Session) : Prop where
  output : session.output = session'.output
  agree : session.environment.AgreeOn names session'.environment

/-- Two outcomes with the same answer, in sessions that are alike. -/
structure Outcome.Alike (names : String → Prop) (outcome outcome' : Outcome) : Prop where
  answer : outcome.answer = outcome'.answer
  session : outcome.session.Alike names outcome'.session

namespace Statement

/-- The statement needs the value of the name. -/
def Reads (statement : Statement) (name : String) : Prop :=
  ∃ operand ∈ statement.resolved, operand.item = .name name

/-- Some statement reads the name, and none before it binds the name. -/
def Free (statements : List Statement) (name : String) : Prop :=
  ∃ before statement after, statements = before ++ statement :: after ∧
    statement.Reads name ∧ ¬ Bound before name

theorem bound_cons_iff (statement : Statement) (rest : List Statement) (name : String) :
    Bound (statement :: rest) name ↔ statement.target? = some name ∨ Bound rest name := by
  simp only [Bound, List.mem_cons, or_and_right, exists_or, exists_eq_left]

theorem free_cons_iff (statement : Statement) (rest : List Statement) (name : String) :
    Free (statement :: rest) name ↔
      statement.Reads name ∨ statement.target? ≠ some name ∧ Free rest name := by
  constructor
  · rintro ⟨before, reader, after, hsplit, hreads, hbound⟩
    -- The reader is the first statement, or it stands behind it.
    rcases List.cons_eq_append_iff.mp hsplit with ⟨rfl, hreader⟩ | ⟨before', rfl, hrest⟩
    · rw [List.cons.injEq] at hreader
      rw [hreader.1] at hreads
      exact Or.inl hreads
    · rw [bound_cons_iff, not_or] at hbound
      exact Or.inr ⟨hbound.1, before', reader, after, hrest, hreads, hbound.2⟩
  · rintro (hreads | ⟨htarget, before, reader, after, rfl, hreads, hbound⟩)
    · refine ⟨[], statement, rest, rfl, hreads, ?_⟩
      rintro ⟨other, hother, _⟩
      exact absurd hother List.not_mem_nil
    · refine ⟨statement :: before, reader, after, rfl, hreads, ?_⟩
      rw [bound_cons_iff, not_or]
      exact ⟨htarget, hbound⟩

/-! ### Two runs -/

section Alike

variable (statement : Statement) (names : String → Prop)

/-- What a statement does depends on the names it reads. -/
theorem effect_eq_of_agreeOn (env env' : Environment) (h : env.AgreeOn statement.Reads env') :
    statement.effect env = statement.effect env' := by
  -- An operand that is a name is read, so the environments agree on it.
  have hvalue : ∀ operand ∈ statement.resolved, env.valueOf operand = env'.valueOf operand := by
    intro operand hoperand
    refine env.valueOf_eq_of_agree env' operand fun x hx => ?_
    exact h x ⟨operand, hoperand, hx⟩
  unfold effect
  cases hform : statement.form? with
  | none => rfl
  | some command =>
      simp only [resolved, hform] at hvalue
      cases command with
      | bind target source =>
          simp only [Command.effect, hvalue source (List.mem_singleton_self source)]
      | write operand newline =>
          simp only [Command.effect, hvalue operand (List.mem_singleton_self operand)]
      | compute op left right =>
          simp only [Command.effect, hvalue left List.mem_cons_self,
            hvalue right (List.mem_cons_of_mem left (List.mem_singleton_self right))]

/-- An effect makes two environments agree on what it binds. -/
theorem agreeOn_after (env env' : Environment) (effect : Effect)
    (heffect : statement.effect env = .ok effect) (h : env.AgreeOn names env') :
    (env.after effect).AgreeOn (fun name => names name ∨ statement.target? = some name)
      (env'.after effect) := by
  intro name hname
  -- A binding makes them agree on its target, whatever was bound to it before.
  by_cases htarget : statement.target? = some name
  · rcases get?_after_of_target? statement env effect name heffect htarget with ⟨_, v, _, _, hget⟩
    rw [hget env, hget env']
  · rw [get?_after_of_target?_ne statement env effect name heffect htarget env,
      get?_after_of_target?_ne statement env effect name heffect htarget env']
    exact h name (hname.resolve_right htarget)

/-- One statement in two sessions that agree on what it reads. Its outcomes are
    alike, and if it meets no fault the sessions then also agree on its
    target. -/
theorem eval_alike (session session' : Session) (h : session.Alike names session')
    (hreads : ∀ name, statement.Reads name → names name) :
    (statement.eval session).Alike
      (fun name => names name ∨
        (statement.eval session).Completed ∧ statement.target? = some name)
      (statement.eval session') := by
  rcases session with ⟨env, output⟩
  rcases session' with ⟨env', output'⟩
  rcases h with ⟨houtput, hagree⟩
  simp only at houtput hagree
  subst houtput
  have hsame := statement.effect_eq_of_agreeOn env env' (hagree.mono hreads)
  cases heffect : statement.effect env with
  | error fault =>
      -- Nothing is bound, so the names are those from before.
      rw [eval_of_effect_error statement ⟨env, output⟩ fault heffect,
        eval_of_effect_error statement ⟨env', output⟩ fault (hsame ▸ heffect)]
      have hnot := (Outcome.not_completed_iff (.stopped fault ⟨env, output⟩)).mpr ⟨fault, rfl⟩
      exact ⟨rfl, rfl, hagree.mono fun name hname => hname.resolve_right fun hdone => hnot hdone.1⟩
  | ok effect =>
      cases haccepts : output.accepts effect.text with
      | true =>
          rw [eval_of_accepts statement ⟨env, output⟩ effect heffect haccepts,
            eval_of_accepts statement ⟨env', output⟩ effect (hsame ▸ heffect) haccepts]
          have hafter := agreeOn_after statement names env env' effect heffect hagree
          exact ⟨rfl, rfl, hafter.mono fun name hname => hname.imp_right And.right⟩
      | false =>
          rw [eval_of_refuses statement ⟨env, output⟩ effect heffect haccepts,
            eval_of_refuses statement ⟨env', output⟩ effect (hsame ▸ heffect) haccepts]
          refine ⟨rfl, rfl, hagree.mono fun name hname => hname.resolve_right fun hdone => ?_⟩
          exact (Outcome.not_completed_iff _).mpr ⟨_, rfl⟩ hdone.1

/-- A run in two sessions that agree on its free names. The same statements are
    executed, and the sessions behind also agree on their targets. -/
theorem evalAll_alike (statements : List Statement) (session session' : Session)
    (h : session.Alike names session') (hfree : ∀ name, Free statements name → names name) :
    executed statements session' = executed statements session ∧
      (evalAll statements session).Alike
        (fun name => names name ∨ Bound (executed statements session) name)
        (evalAll statements session') := by
  induction statements generalizing names session session' with
  | nil =>
      refine ⟨rfl, rfl, h.output, h.agree.mono fun name hname => hname.resolve_right ?_⟩
      rintro ⟨statement, hmem, _⟩
      exact absurd hmem List.not_mem_nil
  | cons statement rest ih =>
      have hstep := eval_alike statement names session session' h fun name hreads =>
        hfree name ((free_cons_iff statement rest name).mpr (Or.inl hreads))
      cases hanswer : (statement.eval session).answer with
      | error fault =>
          have hanswer' := hstep.answer.symm.trans hanswer
          rw [executed_cons_of_error statement rest session fault hanswer,
            executed_cons_of_error statement rest session' fault hanswer', evalAll_cons,
            evalAll_cons, Outcome.andThen_of_error _ _ fault hanswer,
            Outcome.andThen_of_error _ _ fault hanswer']
          refine ⟨rfl, hstep.answer, hstep.session.output, hstep.session.agree.mono ?_⟩
          rintro name (hname | ⟨other, hmem, _⟩)
          · exact Or.inl hname
          · exact absurd hmem List.not_mem_nil
      | ok value =>
          have hanswer' := hstep.answer.symm.trans hanswer
          -- What is free behind the statement was free before, or it is the target.
          have hrest := ih _ _ _ hstep.session fun name hname => by
            by_cases htarget : statement.target? = some name
            · exact Or.inr ⟨⟨value, hanswer⟩, htarget⟩
            · exact Or.inl (hfree name
                ((free_cons_iff statement rest name).mpr (Or.inr ⟨htarget, hname⟩)))
          rcases hrest with ⟨hexecuted, hoanswer, hsession⟩
          rw [executed_cons_of_ok statement rest session value hanswer,
            executed_cons_of_ok statement rest session' value hanswer', evalAll_cons,
            evalAll_cons, Outcome.andThen_of_ok _ _ value hanswer,
            Outcome.andThen_of_ok _ _ value hanswer']
          refine ⟨congrArg (List.cons statement) hexecuted, ?_, hsession.output,
            hsession.agree.mono fun name hname => ?_⟩
          · simp only [hoanswer]
          · rw [bound_cons_iff] at hname
            rcases hname with hname | htarget | hbound
            · exact Or.inl (Or.inl hname)
            · exact Or.inl (Or.inr ⟨⟨value, hanswer⟩, htarget⟩)
            · exact Or.inr hbound

end Alike

/-! ### The frame of a run -/

/-- A completed run leaves alone what none of its statements binds. -/
theorem get?_evalAll_of_completed (statements : List Statement) (session : Session)
    (name : String) (hdone : (evalAll statements session).Completed)
    (h : ¬ Bound statements name) :
    (evalAll statements session).session.environment.get? name =
      session.environment.get? name := by
  induction statements using List.reverseRecOn with
  | nil => rfl
  | append_singleton before statement ih =>
      rcases exists_effect_of_completed_concat before statement session hdone with
        ⟨hbefore, effect, heffect, hsession⟩
      rw [bound_concat_iff, not_or] at h
      -- The last statement has another target, so it leaves the name to those before it.
      rw [hsession, get?_after_of_target?_ne statement _ effect name heffect h.2]
      exact ih hbefore h.1

/-- A run leaves alone what none of the statements it executes binds. -/
theorem get?_evalAll_of_not_bound (statements : List Statement) (session : Session)
    (name : String) (h : ¬ Bound (executed statements session) name) :
    (evalAll statements session).session.environment.get? name =
      session.environment.get? name := by
  rw [environment_evalAll_eq_executed]
  exact get?_evalAll_of_completed _ session name (executed_spec statements session).1 h

/-- No name is ever unbound. -/
theorem exists_get?_evalAll_of_get? (statements : List Statement) (session : Session)
    (name : String) (v : Value) (h : session.environment.get? name = some v) :
    ∃ w, (evalAll statements session).session.environment.get? name = some w := by
  rw [environment_evalAll_eq_executed,
    exists_get?_evalAll_iff _ session name (executed_spec statements session).1]
  exact Or.inl ⟨v, h⟩

/-! ### More bindings -/

theorem exists_get?_of_reads (statement : Statement) (env : Environment) (effect : Effect)
    (name : String) (heffect : statement.effect env = .ok effect) (h : statement.Reads name) :
    ∃ v, env.get? name = some v := by
  rcases h with ⟨⟨item, line⟩, hoperand, rfl⟩
  have hnone := (exists_effect_iff statement env).mp ⟨effect, heffect⟩ _ hoperand
  -- A name without a value would be a fault.
  cases hget : env.get? name with
  | some v => exact ⟨v, rfl⟩
  | none =>
      simp only [Environment.fault?, Environment.valueOf, hget, reduceCtorEq] at hnone

/-- A completed run has found all its free names bound. -/
theorem exists_get?_of_free (statements : List Statement) (session : Session) (name : String)
    (hdone : (evalAll statements session).Completed) (h : Free statements name) :
    ∃ v, session.environment.get? name = some v := by
  rcases h with ⟨before, statement, after, rfl, hreads, hbound⟩
  rw [List.append_cons] at hdone
  rcases exists_effect_of_completed_concat before statement session
    (completed_of_completed_append _ after session hdone) with ⟨hbefore, effect, heffect, _⟩
  -- The name is read with success, so it is bound by then, and not by a statement before.
  have hvalue := exists_get?_of_reads statement _ effect name heffect hreads
  rw [exists_get?_evalAll_iff before session name hbefore] at hvalue
  exact hvalue.resolve_right hbound

theorem agreeOn_free_of_extends (statements : List Statement) (session : Session)
    (env : Environment) (hdone : (evalAll statements session).Completed)
    (h : env.Extends session.environment) :
    session.environment.AgreeOn (Free statements) env := by
  intro name hfree
  rcases exists_get?_of_free statements session name hdone hfree with ⟨v, hv⟩
  rw [hv, h name v hv]

/-- A run depends on its free names, and it changes the targets of the statements it
    executes. Two sessions with the same output that agree on the free names have
    the same answer or fault, execute the same statements and write the same; in
    the end they agree on the free names and on the targets of what was
    executed. Any other name keeps what it had, and none is unbound. So more
    bindings make no difference to a run that needs none of them. -/
theorem evalAll_of_agreeOn_free (statements : List Statement) :
    (∀ session session', session.output = session'.output →
      session.environment.AgreeOn (Free statements) session'.environment →
      executed statements session' = executed statements session ∧
      (evalAll statements session).Alike
        (fun name => Free statements name ∨ Bound (executed statements session) name)
        (evalAll statements session')) ∧
    (∀ session name,
      (¬ Bound (executed statements session) name →
        (evalAll statements session).session.environment.get? name =
          session.environment.get? name) ∧
      ∀ v, session.environment.get? name = some v →
        ∃ w, (evalAll statements session).session.environment.get? name = some w) ∧
    (∀ session env, env.Extends session.environment → (evalAll statements session).Completed →
      (evalAll statements ⟨env, session.output⟩).answer = (evalAll statements session).answer ∧
      (evalAll statements ⟨env, session.output⟩).session.output =
        (evalAll statements session).session.output) := by
  refine ⟨fun session session' houtput hagree => ?_, fun session name => ?_,
    fun session env hextends hdone => ?_⟩
  · exact evalAll_alike (Free statements) statements session session' ⟨houtput, hagree⟩
      fun _ hname => hname
  · exact ⟨get?_evalAll_of_not_bound statements session name,
      exists_get?_evalAll_of_get? statements session name⟩
  · -- A completed run had values for its free names, and these values are kept.
    have hagree := agreeOn_free_of_extends statements session env hdone hextends
    have halike := (evalAll_alike (Free statements) statements session ⟨env, session.output⟩
      ⟨rfl, hagree⟩ fun _ hname => hname).2
    exact ⟨halike.answer.symm, halike.session.output.symm⟩

/-- What `y` is bound to does not matter, since it is bound before it is read, and
    in the end it makes no difference any more. The name `w` matters and is bound
    in neither session, so both runs fail. -/
theorem alike_of_shadowed_binding :
    let statements : List Statement :=
      [⟨[⟨.keyword .bind, 1⟩, ⟨.identifier "y", 1⟩, ⟨.identifier "x", 1⟩, ⟨.separator, 1⟩]⟩,
       ⟨[⟨.keyword .print, 2⟩, ⟨.identifier "y", 2⟩, ⟨.separator, 2⟩]⟩,
       ⟨[⟨.keyword .println, 3⟩, ⟨.identifier "w", 3⟩, ⟨.separator, 3⟩]⟩]
    let session : Session := ⟨.insert .empty "x" (.int 3), .unlimited⟩
    let session' : Session := ⟨.insert (.insert .empty "x" (.int 3)) "y" (.bool true), .unlimited⟩
    session.environment.AgreeOn (Free statements) session'.environment ∧
      (evalAll statements session').answer = .error ⟨.unknownVariable "w", 3⟩ ∧
      (evalAll statements session').session.output.kept = "3".toUTF8 ∧
      (evalAll statements session').session.environment.get? "y" = some (.int 3) := by
  intro statements session session'
  have hagree : session.environment.AgreeOn (Free statements) session'.environment := by
    intro name hfree
    refine (Environment.get?_insert_other _ "y" name _ fun hname => ?_).symm
    -- The first statement binds `y`, and all it reads is `x`.
    subst hname
    rcases (free_cons_iff _ _ "y").mp hfree with ⟨operand, hoperand, hitem⟩ | ⟨htarget, _⟩
    · rw [List.mem_singleton.mp hoperand] at hitem
      exact absurd hitem (by decide)
    · exact htarget rfl
  have halike := ((evalAll_of_agreeOn_free statements).1 session session' rfl hagree).2
  have hy : Bound (executed statements session) "y" :=
    ⟨_, List.mem_cons_self, rfl⟩
  refine ⟨hagree, ?_, ?_, ?_⟩
  · rw [← halike.answer]
    decide +kernel
  · rw [← halike.session.output]
    decide +kernel
  · rw [← halike.session.agree "y" (Or.inr hy)]
    decide +kernel

end Statement

end PrefixScript
