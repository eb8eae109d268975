import PrefixScript.Evaluation
import PrefixScript.Proofs.Grammar

/-!
# Effects of Statements

What a statement does, apart from the session it does it to.

Evaluation interleaves three things: finding the values of operands, changing
the variables, and writing to an output that may refuse. Only the first depends
on the variables and only the last on the output, so they come apart. The effect
of a statement is found from the variables alone, and it is a record: what is
bound, what is printed and for which line, and what is answered. Settling an
effect on a session is the same for all statements, whatever they are: the text
goes to the output, and if the output takes it, the rest happens.

A statement that prints nothing has the empty text, which every output takes.
That is what makes one rule enough.

## Main definitions

* `Effect`: What a statement binds, prints and answers.
* `Environment.fault?`: The fault that an operand causes.
* `Environment.after`: The variables after an effect.
* `Statement.effect`: The effect of a statement, or the fault of an operand.
* `Session.settle`: Carrying out an effect.

## Theorems

* `write_empty`, `accepts_empty`: Printing nothing changes nothing and succeeds.
* `valueOf_cases`, `fault?_cases`: Where operands have their values and their faults
  from.
* `eval_eq_settle`: Evaluating a statement is settling its effect.
* `eval_of_form?_eq_none`: A statement without a form does nothing.
* `eval_of_effect_error`, `eval_of_accepts`, `eval_of_refuses`: The three ways it
  can go.
* `eval_cases`: There is no other way.
* `effect_eq_error_iff`: The fault of a statement is that of its first operand
  without a value.
* `effect_cases`: All that an effect can be, form by form.
* `binding_cases`: What an effect binds, if it binds anything.
* `get?_after_of_target?`, `get?_after_of_target?_ne`: What it does to a name.
* `form?_of_text_ne_empty`: Only print statements print.
* `exists_effect_iff`: A statement has an effect if all its operands have values.
-/

namespace PrefixScript

/-- What a statement does to a session. `line` is the line to report if the text
    is refused. -/
structure Effect where
  binding : Option (String × Value) := none
  text : String := ""
  line : Nat := 0
  answer : Option Value := none

/-- The fault that an operand causes, if it has no value. -/
def Environment.fault? (env : Environment) (operand : Located Operand) : Option Fault :=
  match env.valueOf operand with
  | .ok _ => none
  | .error fault => some fault

/-- The variables after an effect. -/
def Environment.after (env : Environment) (effect : Effect) : Environment :=
  match effect.binding with
  | some (name, v) => env.insert name v
  | none => env

/-- The effect of a command, given the variables. -/
def Command.effect (env : Environment) : Command → Except Fault Effect
  | .bind target source => (env.valueOf source).map fun v => { binding := some (target, v) }
  | .write operand newline =>
    (env.valueOf operand).map fun v => { text := v.printed newline, line := operand.line }
  | .compute op left right =>
    (env.valueOf left).bind fun l => (env.valueOf right).map fun r => { answer := op.answer? l r }

/-- The effect of a statement, given the variables. A statement without a form
    has none to speak of. -/
def Statement.effect (statement : Statement) (env : Environment) : Except Fault Effect :=
  match statement.form? with
  | some command => command.effect env
  | none => .ok {}

/-- Carry out an effect, or fail to for want of room. -/
def Session.settle (session : Session) (effect : Effect) : Outcome :=
  if session.output.accepts effect.text then
    ⟨.ok effect.answer, ⟨session.environment.after effect, session.output.write effect.text⟩⟩
  else
    .stopped ⟨.outputFailed session.output.failure, effect.line⟩ (session.write effect.text)

namespace Sink

@[simp] theorem accepts_empty (sink : Sink) : sink.accepts "" = true := by
  unfold accepts
  split
  · rfl
  · simp only [String.utf8ByteSize_empty, Nat.zero_le, decide_true]

@[simp] theorem write_empty (sink : Sink) : sink.write "" = sink := by
  rcases sink with ⟨kept, room, failure⟩
  cases room with
  | none => simp only [write, String.toUTF8_eq_toByteArray, String.toByteArray_empty,
      ByteArray.append_empty]
  | some room =>
      -- Even where there is room, nothing of an empty text is kept.
      have hextract : ByteArray.empty.extract 0 room = ByteArray.empty := by
        rw [ByteArray.extract_eq_empty_iff, ByteArray.size_empty]
        omega
      simp only [write, String.toUTF8_eq_toByteArray, String.toByteArray_empty, hextract,
        ByteArray.append_empty, String.utf8ByteSize_empty, Nat.sub_zero]

end Sink

namespace Environment

theorem after_of_binding_eq_none (env : Environment) (effect : Effect)
    (h : effect.binding = none) : env.after effect = env := by
  rw [after, h]

theorem after_of_binding_eq_some (env : Environment) (effect : Effect) (name : String)
    (v : Value) (h : effect.binding = some (name, v)) :
    env.after effect = env.insert name v := by
  rw [after, h]

/-- What an operand can have its value from. -/
theorem valueOf_cases (env : Environment) (operand : Located Operand) (v : Value)
    (h : env.valueOf operand = .ok v) :
    operand.item = .literal v ∨ ∃ x, operand.item = .name x ∧ env.get? x = some v := by
  rcases operand with ⟨item, line⟩
  cases item with
  | literal w =>
      rw [valueOf, Except.ok.injEq] at h
      exact Or.inl (by rw [h])
  | oversized digits =>
      rw [valueOf] at h
      exact absurd h (by simp only [reduceCtorEq, not_false_eq_true])
  | name x =>
      -- The only other operand with a value is a name that is bound.
      refine Or.inr ⟨x, rfl, ?_⟩
      simp only [valueOf] at h
      cases hx : env.get? x with
      | none =>
          rw [hx] at h
          exact absurd h (by simp only [reduceCtorEq, not_false_eq_true])
      | some w =>
          simp only [hx, Except.ok.injEq] at h
          rw [h]

/-- What keeps an operand from having a value. -/
theorem fault?_cases (env : Environment) (operand : Located Operand) (fault : Fault)
    (h : env.fault? operand = some fault) :
    (∃ digits, operand.item = .oversized digits ∧
      fault = ⟨.literalTooLarge digits, operand.line⟩) ∨
    ∃ x, operand.item = .name x ∧ env.get? x = none ∧
      fault = ⟨.unknownVariable x, operand.line⟩ := by
  rcases operand with ⟨item, line⟩
  cases item with
  | literal v => exact absurd h (by simp only [fault?, valueOf, reduceCtorEq, not_false_eq_true])
  | oversized digits =>
      simp only [fault?, valueOf, Option.some.injEq] at h
      exact Or.inl ⟨digits, rfl, h.symm⟩
  | name x =>
      simp only [fault?, valueOf] at h
      -- A bound name is not at fault, so the name is unbound.
      cases hx : env.get? x with
      | some v =>
          rw [hx] at h
          exact absurd h (by simp only [reduceCtorEq, not_false_eq_true])
      | none =>
          simp only [hx, Option.some.injEq] at h
          exact Or.inr ⟨x, rfl, hx, h.symm⟩

end Environment

theorem Command.eval_eq_settle (command : Command) (session : Session) :
    command.eval session =
      match command.effect session.environment with
      | .ok effect => session.settle effect
      | .error fault => .stopped fault session := by
  cases command with
  | bind target source =>
      simp only [eval, effect, Session.withValue]
      cases session.environment.valueOf source with
      | error fault => rfl
      | ok v => simp only [Except.map, Session.settle, Sink.accepts_empty, Sink.write_empty, if_true,
          Outcome.idle, Session.bind, Environment.after]
  | write operand newline =>
      simp only [eval, effect, Session.withValue]
      cases session.environment.valueOf operand with
      | error fault => rfl
      | ok v => rfl
  | compute op left right =>
      simp only [eval, effect, Session.withValue]
      cases session.environment.valueOf left with
      | error fault => rfl
      | ok l =>
          cases session.environment.valueOf right with
          | error fault => rfl
          | ok r => simp only [Except.map, Except.bind, Session.settle, Sink.accepts_empty,
              Sink.write_empty, if_true, Environment.after]

/-- The value behind a mapped one. -/
theorem exists_of_map_eq_ok {α β : Type} (value : Except Fault α) (f : α → β) (result : β)
    (h : value.map f = .ok result) : ∃ v, value = .ok v ∧ f v = result := by
  cases value with
  | error fault => exact absurd h (by simp only [Except.map, reduceCtorEq, not_false_eq_true])
  | ok v => exact ⟨v, rfl, Except.ok.inj h⟩

/-- The values behind a sequence of two. -/
theorem exists_of_bind_eq_ok {α β : Type} (value : Except Fault α) (next : α → Except Fault β)
    (result : β) (h : value.bind next = .ok result) :
    ∃ v, value = .ok v ∧ next v = .ok result := by
  cases value with
  | error fault => exact absurd h (by simp only [Except.bind, reduceCtorEq, not_false_eq_true])
  | ok v => exact ⟨v, rfl, h⟩

theorem Command.effect_eq_error_iff (command : Command) (env : Environment) (fault : Fault) :
    command.effect env = .error fault ↔
      command.operands.findSome? env.fault? = some fault := by
  cases command with
  | bind target source =>
      simp only [effect, operands, List.findSome?_cons, List.findSome?_nil, Environment.fault?]
      cases env.valueOf source with
      | ok v => simp only [Except.map, reduceCtorEq]
      | error first => simp only [Except.map, Except.error.injEq, Option.some.injEq]
  | write operand newline =>
      simp only [effect, operands, List.findSome?_cons, List.findSome?_nil, Environment.fault?]
      cases env.valueOf operand with
      | ok v => simp only [Except.map, reduceCtorEq]
      | error first => simp only [Except.map, Except.error.injEq, Option.some.injEq]
  | compute op left right =>
      simp only [effect, operands, List.findSome?_cons, List.findSome?_nil, Environment.fault?]
      -- The right operand is at fault only behind a left one that is not.
      cases env.valueOf left with
      | error first => simp only [Except.bind, Except.error.injEq, Option.some.injEq]
      | ok l =>
          cases env.valueOf right with
          | ok r => simp only [Except.bind, Except.map, reduceCtorEq]
          | error second => simp only [Except.bind, Except.map, Except.error.injEq, Option.some.injEq]

namespace Statement

/-- Evaluating a statement is settling its effect. From here on the definition of
    evaluation is opened only to compare it with itself. -/
theorem eval_eq_settle (statement : Statement) (session : Session) :
    statement.eval session =
      match statement.effect session.environment with
      | .ok effect => session.settle effect
      | .error fault => .stopped fault session := by
  -- A statement without a form does nothing, which is to settle nothing.
  rw [eval, command?_eq_form?, effect]
  cases statement.form? with
  | some command => exact command.eval_eq_settle session
  | none => simp only [Session.settle, Sink.accepts_empty, Sink.write_empty, if_true,
      Environment.after, Outcome.idle]

/-- A statement without a form does nothing. -/
theorem eval_of_form?_eq_none (statement : Statement) (session : Session)
    (h : statement.form? = none) : statement.eval session = .idle session := by
  rw [eval, command?_eq_form?, h]

theorem eval_of_effect_error (statement : Statement) (session : Session) (fault : Fault)
    (h : statement.effect session.environment = .error fault) :
    statement.eval session = .stopped fault session := by
  rw [eval_eq_settle, h]

theorem eval_of_accepts (statement : Statement) (session : Session) (effect : Effect)
    (h : statement.effect session.environment = .ok effect)
    (haccepts : session.output.accepts effect.text = true) :
    statement.eval session =
      ⟨.ok effect.answer,
        ⟨session.environment.after effect, session.output.write effect.text⟩⟩ := by
  rw [eval_eq_settle, h]
  exact if_pos haccepts

theorem eval_of_refuses (statement : Statement) (session : Session) (effect : Effect)
    (h : statement.effect session.environment = .ok effect)
    (hrefuses : session.output.accepts effect.text = false) :
    statement.eval session =
      .stopped ⟨.outputFailed session.output.failure, effect.line⟩ (session.write effect.text) := by
  rw [eval_eq_settle, h]
  exact if_neg (by rw [hrefuses]; exact Bool.false_ne_true)

/-- All that can become of a statement: an operand has no value, or the effect is
    carried out, or the output refuses a text, which is not empty then. -/
theorem eval_cases (statement : Statement) (session : Session) :
    (∃ fault, statement.effect session.environment = .error fault ∧
      statement.eval session = .stopped fault session) ∨
    (∃ effect, statement.effect session.environment = .ok effect ∧
      statement.eval session =
        ⟨.ok effect.answer,
          ⟨session.environment.after effect, session.output.write effect.text⟩⟩) ∨
    (∃ effect, statement.effect session.environment = .ok effect ∧ effect.text ≠ "" ∧
      statement.eval session =
        .stopped ⟨.outputFailed session.output.failure, effect.line⟩
          (session.write effect.text)) := by
  cases heffect : statement.effect session.environment with
  | error fault =>
      exact Or.inl ⟨fault, rfl, eval_of_effect_error statement session fault heffect⟩
  | ok effect =>
      refine Or.inr ?_
      cases haccepts : session.output.accepts effect.text with
      | true => exact Or.inl ⟨effect, rfl, eval_of_accepts statement session effect heffect haccepts⟩
      | false =>
          refine Or.inr ⟨effect, rfl, fun hempty => ?_,
            eval_of_refuses statement session effect heffect haccepts⟩
          -- An empty text is never refused.
          rw [hempty, Sink.accepts_empty] at haccepts
          exact absurd haccepts (by simp only [reduceCtorEq, not_false_eq_true])

/-- All that the effect of a statement can be, one case for each form. -/
theorem effect_cases (statement : Statement) (env : Environment) (effect : Effect)
    (h : statement.effect env = .ok effect) :
    (statement.form? = none ∧ effect = {}) ∨
    (∃ target source v, statement.form? = some (.bind target source) ∧
      env.valueOf source = .ok v ∧ effect = { binding := some (target, v) }) ∨
    (∃ operand newline v, statement.form? = some (.write operand newline) ∧
      env.valueOf operand = .ok v ∧
      effect = { text := v.printed newline, line := operand.line }) ∨
    (∃ op left right l r, statement.form? = some (.compute op left right) ∧
      env.valueOf left = .ok l ∧ env.valueOf right = .ok r ∧
      effect = { answer := op.answer? l r }) := by
  -- A form has an effect only if the operands have the values it is made from.
  unfold Statement.effect at h
  cases hform : statement.form? with
  | none =>
      simp only [hform, Except.ok.injEq] at h
      exact Or.inl ⟨rfl, h.symm⟩
  | some command =>
      simp only [hform] at h
      cases command with
      | bind target source =>
          rcases exists_of_map_eq_ok _ _ effect h with ⟨v, hv, heffect⟩
          exact Or.inr (Or.inl ⟨target, source, v, rfl, hv, heffect.symm⟩)
      | write operand newline =>
          rcases exists_of_map_eq_ok _ _ effect h with ⟨v, hv, heffect⟩
          exact Or.inr (Or.inr (Or.inl ⟨operand, newline, v, rfl, hv, heffect.symm⟩))
      | compute op left right =>
          rcases exists_of_bind_eq_ok _ _ effect h with ⟨l, hl, h⟩
          rcases exists_of_map_eq_ok _ _ effect h with ⟨r, hr, heffect⟩
          exact Or.inr (Or.inr (Or.inr ⟨op, left, right, l, r, rfl, hl, hr, heffect.symm⟩))

/-- What the effect of a statement binds. It is all that an effect does to the
    variables. -/
theorem binding_cases (statement : Statement) (env : Environment) (effect : Effect)
    (h : statement.effect env = .ok effect) :
    (statement.target? = none ∧ effect.binding = none) ∨
    (∃ target source v, statement.form? = some (.bind target source) ∧
      statement.target? = some target ∧ env.valueOf source = .ok v ∧
      effect.binding = some (target, v)) := by
  -- Only the second of the forms has a target, and only it binds.
  rcases effect_cases statement env effect h with ⟨hform, rfl⟩ | ⟨target, source, v, hform, hv, rfl⟩ |
    ⟨operand, newline, v, hform, _, rfl⟩ | ⟨op, left, right, l, r, hform, _, _, rfl⟩
  · exact Or.inl ⟨by rw [target?, hform]; rfl, rfl⟩
  · refine Or.inr ⟨target, source, v, hform, ?_, hv, rfl⟩
    exact (statement.target?_eq_some_iff target).mpr ⟨source, hform⟩
  · exact Or.inl ⟨by rw [target?, hform]; rfl, rfl⟩
  · exact Or.inl ⟨by rw [target?, hform]; rfl, rfl⟩

/-- An effect gives the target of its statement the value of the source, wherever it
    takes place. -/
theorem get?_after_of_target? (statement : Statement) (env : Environment) (effect : Effect)
    (name : String) (heffect : statement.effect env = .ok effect)
    (h : statement.target? = some name) :
    ∃ source v, statement.form? = some (.bind name source) ∧ env.valueOf source = .ok v ∧
      ∀ other : Environment, (other.after effect).get? name = some v := by
  rcases binding_cases statement env effect heffect with ⟨htarget, _⟩ |
    ⟨target, source, v, hform, htarget, hv, hbinding⟩
  · rw [htarget] at h
    exact absurd h (by simp only [reduceCtorEq, not_false_eq_true])
  · rw [htarget, Option.some.injEq] at h
    subst h
    refine ⟨source, v, hform, hv, fun other => ?_⟩
    rw [other.after_of_binding_eq_some effect target v hbinding]
    exact other.get?_insert_self target v

/-- An effect leaves every other name alone. -/
theorem get?_after_of_target?_ne (statement : Statement) (env : Environment) (effect : Effect)
    (name : String) (heffect : statement.effect env = .ok effect)
    (h : statement.target? ≠ some name) (other : Environment) :
    (other.after effect).get? name = other.get? name := by
  rcases binding_cases statement env effect heffect with ⟨_, hbinding⟩ |
    ⟨target, source, v, _, htarget, _, hbinding⟩
  · rw [other.after_of_binding_eq_none effect hbinding]
  · rw [other.after_of_binding_eq_some effect target v hbinding]
    -- The target is another name, and nothing else is bound.
    refine other.get?_insert_other target name v fun hname => h ?_
    rw [htarget, hname]

/-- An effect that prints is that of a print statement. -/
theorem form?_of_text_ne_empty (statement : Statement) (env : Environment) (effect : Effect)
    (h : statement.effect env = .ok effect) (htext : effect.text ≠ "") :
    ∃ operand newline, statement.form? = some (.write operand newline) ∧
      effect.line = operand.line := by
  -- The other forms write nothing.
  rcases effect_cases statement env effect h with ⟨_, rfl⟩ | ⟨_, _, _, _, _, rfl⟩ |
    ⟨operand, newline, v, hform, _, rfl⟩ | ⟨_, _, _, _, _, _, _, _, rfl⟩
  · exact absurd rfl htext
  · exact absurd rfl htext
  · exact ⟨operand, newline, hform, rfl⟩
  · exact absurd rfl htext

theorem effect_eq_error_iff (statement : Statement) (env : Environment) (fault : Fault) :
    statement.effect env = .error fault ↔
      statement.resolved.findSome? env.fault? = some fault := by
  unfold effect resolved
  cases statement.form? with
  | some command => exact command.effect_eq_error_iff env fault
  | none => simp only [reduceCtorEq, List.findSome?_nil]

theorem exists_effect_iff (statement : Statement) (env : Environment) :
    (∃ effect, statement.effect env = .ok effect) ↔
      ∀ operand ∈ statement.resolved, env.fault? operand = none := by
  rw [← List.findSome?_eq_none_iff]
  cases heffect : statement.effect env with
  | ok effect =>
      refine ⟨fun _ => ?_, fun _ => ⟨effect, rfl⟩⟩
      -- A fault among the operands would be the fault of the statement.
      cases hfind : statement.resolved.findSome? env.fault? with
      | none => rfl
      | some fault =>
          rw [(statement.effect_eq_error_iff env fault).mpr hfind] at heffect
          exact absurd heffect (by simp only [reduceCtorEq, not_false_eq_true])
  | error fault =>
      rw [(statement.effect_eq_error_iff env fault).mp heffect]
      simp only [reduceCtorEq, exists_false]

end Statement

end PrefixScript
