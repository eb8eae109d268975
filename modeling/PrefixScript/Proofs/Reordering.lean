import PrefixScript.Proofs.Noninterference
import PrefixScript.Token.Stream

/-!
# Reordering

Which statements next to each other may change places.

Two statements may if neither can notice that the other one came first. There
are three things to notice. Both may print, and then the order shows in the
output; both may be operators, and then it shows in the value, which is the
later of two; or one of them binds a variable that the other one reads or binds
as well. Two statements of which none of this holds are independent, and a run
in which they have changed places completes exactly if the original run does,
and then with the same outcome in all respects.

A run that fails is another matter. It may fail at the other statement first,
for another reason, and with less or more behind it.

The argument is about effects. The effect of a statement depends on the names it
reads, and these the other statement leaves alone, so both statements have the
effects they would have had in the other order. At most one of the effects has
a text, at most one has a value, and they do not bind the same name; hence they
can be carried out in either order. Room in the output is no exception: a text
that is empty neither needs any nor takes any.

## Main definitions

* `Effect.Apart`: Two effects that have no part of the session in common.
* `Statement.Prints`, `Statement.Computes`: Print statements and operators.
* `Statement.Spares`: A statement binds nothing that another one reads or binds.
* `Statement.Independent`: Two statements that may change places.

## Theorems

* `Environment.insert_comm`: Different names can be bound in either order.
* `settle_comm`: Effects that are apart can be carried out in either order.
* `effect_after_of_spares`: A statement that is spared keeps its effect.
* `apart_of_independent`: Independent statements have effects that are apart.
* `eval_comm`: Independent statements can be evaluated in either order.
* `evalAll_swap_of_completed`: So they can in the middle of a completed run.
* `evalAll_swap_iff`: Independent neighbours may change places.
-/

namespace PrefixScript

/-- Different names can be bound in either order. -/
theorem Environment.insert_comm (env : Environment) (name other : String) (v w : Value)
    (h : name ≠ other) :
    (env.insert name v).insert other w = (env.insert other w).insert name v := by
  refine eq_of_get?_eq _ _ fun x => ?_
  rw [get?_insert, get?_insert, get?_insert, get?_insert]
  -- No name is both, so the later binding hides at most its own.
  by_cases hname : name = x
  · rw [if_pos hname, if_pos hname, if_neg fun hother => h (hname.trans hother.symm)]
  · rw [if_neg hname, if_neg hname]

/-! ### Effects -/

/-- Two effects that have no part of the session in common: at most one of them
    prints, at most one answers, and what they bind are different names. -/
structure Effect.Apart (first second : Effect) : Prop where
  text : first.text = "" ∨ second.text = ""
  answer : first.answer = none ∨ second.answer = none
  binding : ∀ name v w, first.binding = some (name, v) → second.binding ≠ some (name, w)

theorem Environment.after_comm (env : Environment) (first second : Effect)
    (h : first.Apart second) :
    (env.after first).after second = (env.after second).after first := by
  unfold after
  rcases hfirst : first.binding with _ | ⟨name, v⟩
  · rfl
  · rcases hsecond : second.binding with _ | ⟨other, w⟩
    · rfl
    · -- Both bind a name, and it is not the same one.
      refine env.insert_comm name other v w fun hname => ?_
      exact h.binding name v w hfirst (by rw [hsecond, hname])

/-- Two texts, one of which is empty, can be written in either order if they can be
    written in one. -/
theorem Sink.accepts_comm (sink : Sink) (text other : String) (h : text = "" ∨ other = "")
    (hfirst : sink.accepts text = true) (hsecond : (sink.write text).accepts other = true) :
    sink.accepts other = true ∧ (sink.write other).accepts text = true ∧
      (sink.write other).write text = (sink.write text).write other := by
  -- The empty text is accepted anywhere, and it leaves the sink as it was.
  rcases h with rfl | rfl
  · rw [write_empty] at hsecond
    exact ⟨hsecond, accepts_empty _, by rw [write_empty, write_empty]⟩
  · exact ⟨accepts_empty _, by rwa [write_empty], by rw [write_empty, write_empty]⟩

namespace Session

theorem settle_of_accepts (session : Session) (effect : Effect)
    (h : session.output.accepts effect.text = true) :
    session.settle effect =
      ⟨.ok effect.answer,
        ⟨session.environment.after effect, session.output.write effect.text⟩⟩ :=
  if_pos h

theorem completed_settle_iff (session : Session) (effect : Effect) :
    (session.settle effect).Completed ↔ session.output.accepts effect.text = true := by
  unfold settle
  by_cases h : session.output.accepts effect.text = true
  · rw [if_pos h]
    exact ⟨fun _ => h, fun _ => ⟨effect.answer, rfl⟩⟩
  · rw [if_neg h]
    -- What is refused is a fault.
    refine ⟨fun hdone => ?_, fun haccepts => absurd haccepts h⟩
    exact absurd hdone ((Outcome.not_completed_iff _).mpr ⟨_, rfl⟩)

/-- Two effects that are both carried out. -/
theorem settle_andThen_of_accepts (session : Session) (first second : Effect)
    (hfirst : session.output.accepts first.text = true)
    (hsecond : (session.output.write first.text).accepts second.text = true) :
    (session.settle first).andThen (fun reached => reached.settle second) =
      ⟨.ok (second.answer.or first.answer),
        ⟨(session.environment.after first).after second,
          (session.output.write first.text).write second.text⟩⟩ := by
  rw [settle_of_accepts session first hfirst, Outcome.andThen_of_ok _ _ first.answer rfl]
  simp only [settle_of_accepts ⟨session.environment.after first, session.output.write first.text⟩
    second hsecond, Outcome.latest]

/-- Effects that are apart can be carried out in either order. -/
theorem settle_comm (session : Session) (first second : Effect) (h : first.Apart second)
    (hdone : ((session.settle first).andThen fun reached => reached.settle second).Completed) :
    (session.settle second).andThen (fun reached => reached.settle first) =
      (session.settle first).andThen fun reached => reached.settle second := by
  rcases (Outcome.completed_andThen_iff _ _).mp hdone with ⟨hfirst, hsecond⟩
  rw [completed_settle_iff] at hfirst
  rw [settle_of_accepts session first hfirst, completed_settle_iff] at hsecond
  rcases session.output.accepts_comm first.text second.text h.text hfirst hsecond with
    ⟨hsecond', hfirst', hwrite⟩
  -- The later answer hides the earlier one, but one of them is not there.
  have hanswer : first.answer.or second.answer = second.answer.or first.answer := by
    rcases h.answer with hnone | hnone
    · rw [hnone, Option.none_or, Option.or_none]
    · rw [hnone, Option.none_or, Option.or_none]
  rw [settle_andThen_of_accepts session second first hsecond' hfirst',
    settle_andThen_of_accepts session first second hfirst hsecond, hanswer, hwrite,
    session.environment.after_comm first second h]

end Session

/-! ### Statements -/

namespace Statement

/-- The statement has the form of a print statement. -/
def Prints (statement : Statement) : Prop :=
  ∃ operand newline, statement.form? = some (.write operand newline)

/-- The statement has the form of an operator. -/
def Computes (statement : Statement) : Prop :=
  ∃ op left right, statement.form? = some (.compute op left right)

/-- What the statement binds, the other one neither reads nor binds. -/
def Spares (statement other : Statement) : Prop :=
  ∀ name, statement.target? = some name → ¬ other.Reads name ∧ other.target? ≠ some name

/-- Two statements that may change places. They do not both print, they are not both
    operators, and neither of them binds what the other one reads or binds. -/
structure Independent (first second : Statement) : Prop where
  prints : ¬ (first.Prints ∧ second.Prints)
  computes : ¬ (first.Computes ∧ second.Computes)
  spares : first.Spares second
  spared : second.Spares first

theorem Independent.symm {first second : Statement} (h : first.Independent second) :
    second.Independent first :=
  ⟨fun hboth => h.prints hboth.symm, fun hboth => h.computes hboth.symm, h.spared, h.spares⟩

/-- Behind a statement that spares it, a statement has the effect it has anyway. -/
theorem effect_after_of_spares (first second : Statement) (env : Environment) (effect : Effect)
    (h : first.Spares second) (heffect : first.effect env = .ok effect) :
    second.effect (env.after effect) = second.effect env := by
  refine second.effect_eq_of_agreeOn _ _ fun name hreads => ?_
  -- A name that is read is not the one that is bound.
  refine get?_after_of_target?_ne first env effect name heffect (fun htarget => ?_) env
  exact (h name htarget).1 hreads

/-- Only print statements have a text. -/
theorem text_eq_empty_of_not_prints (statement : Statement) (env : Environment) (effect : Effect)
    (heffect : statement.effect env = .ok effect) (h : ¬ statement.Prints) : effect.text = "" := by
  by_contra htext
  rcases form?_of_text_ne_empty statement env effect heffect htext with ⟨operand, newline, hform, _⟩
  exact h ⟨operand, newline, hform⟩

/-- Only operators have an answer. -/
theorem answer_eq_none_of_not_computes (statement : Statement) (env : Environment)
    (effect : Effect) (heffect : statement.effect env = .ok effect) (h : ¬ statement.Computes) :
    effect.answer = none := by
  -- Of the four forms only the last one answers.
  rcases effect_cases statement env effect heffect with ⟨_, rfl⟩ | ⟨_, _, _, _, _, rfl⟩ |
    ⟨_, _, _, _, _, rfl⟩ | ⟨op, left, right, _, _, hform, _⟩
  · rfl
  · rfl
  · rfl
  · exact absurd ⟨op, left, right, hform⟩ h

/-- What is bound is the target. -/
theorem target?_of_binding (statement : Statement) (env : Environment) (effect : Effect)
    (name : String) (v : Value) (heffect : statement.effect env = .ok effect)
    (h : effect.binding = some (name, v)) : statement.target? = some name := by
  rcases binding_cases statement env effect heffect with ⟨_, hnone⟩ |
    ⟨target, _, _, _, htarget, _, hbinding⟩
  · rw [hnone] at h
    exact absurd h (by simp only [reduceCtorEq, not_false_eq_true])
  · rw [hbinding, Option.some.injEq, Prod.mk.injEq] at h
    rw [htarget, h.1]

/-- Independent statements have effects that are apart, in whatever environments they
    have them. -/
theorem apart_of_independent (first second : Statement) (env env' : Environment)
    (effect effect' : Effect) (h : first.Independent second)
    (hfirst : first.effect env = .ok effect) (hsecond : second.effect env' = .ok effect') :
    effect.Apart effect' := by
  refine ⟨?_, ?_, fun name v w hbinding hbinding' => ?_⟩
  · rcases not_and_or.mp h.prints with hnot | hnot
    · exact Or.inl (text_eq_empty_of_not_prints first env effect hfirst hnot)
    · exact Or.inr (text_eq_empty_of_not_prints second env' effect' hsecond hnot)
  · rcases not_and_or.mp h.computes with hnot | hnot
    · exact Or.inl (answer_eq_none_of_not_computes first env effect hfirst hnot)
    · exact Or.inr (answer_eq_none_of_not_computes second env' effect' hsecond hnot)
  · -- A name that both bind would be a target that is not spared.
    have htarget := target?_of_binding first env effect name v hfirst hbinding
    have htarget' := target?_of_binding second env' effect' name w hsecond hbinding'
    exact (h.spares name htarget).2 htarget'

/-- One statement behind the other, as one effect behind the other. -/
theorem eval_andThen_eq_settle (first second : Statement) (session : Session)
    (effect effect' : Effect) (hfirst : first.effect session.environment = .ok effect)
    (hsecond : second.effect (session.environment.after effect) = .ok effect') :
    (first.eval session).andThen second.eval =
      (session.settle effect).andThen fun reached => reached.settle effect' := by
  have heval : first.eval session = session.settle effect := by rw [eval_eq_settle, hfirst]
  rw [heval]
  by_cases haccepts : session.output.accepts effect.text = true
  · -- The second statement finds the variables as the first effect has left them.
    have hnext : ∀ output, second.eval ⟨session.environment.after effect, output⟩ =
        Session.settle ⟨session.environment.after effect, output⟩ effect' := by
      intro output
      rw [eval_eq_settle, hsecond]
    rw [session.settle_of_accepts effect haccepts, Outcome.andThen_of_ok _ _ effect.answer rfl,
      Outcome.andThen_of_ok _ _ effect.answer rfl, hnext]
  · -- If the first effect is refused, the second is not tried.
    rw [← session.completed_settle_iff, Outcome.not_completed_iff] at haccepts
    rcases haccepts with ⟨fault, hfault⟩
    rw [Outcome.andThen_of_error _ _ fault hfault, Outcome.andThen_of_error _ _ fault hfault]

/-- Independent statements can be evaluated in either order. -/
theorem eval_comm (first second : Statement) (session : Session) (h : first.Independent second)
    (hdone : ((first.eval session).andThen second.eval).Completed) :
    (second.eval session).andThen first.eval = (first.eval session).andThen second.eval := by
  rcases (Outcome.completed_andThen_iff _ _).mp hdone with ⟨hfirst, hsecond⟩
  rcases exists_effect_of_completed first session hfirst with ⟨effect, heffect, heval⟩
  rw [heval] at hsecond
  rcases exists_effect_of_completed second _ hsecond with ⟨effect', heffect', _⟩
  -- In the other order both statements have the same effects as in this one.
  have hsecond' : second.effect session.environment = .ok effect' := by
    rw [← effect_after_of_spares first second _ effect h.spares heffect]
    exact heffect'
  have hfirst' : first.effect (session.environment.after effect') = .ok effect := by
    rw [effect_after_of_spares second first _ effect' h.spared hsecond']
    exact heffect
  have hpair := eval_andThen_eq_settle first second session effect effect' heffect heffect'
  rw [hpair] at hdone ⊢
  rw [eval_andThen_eq_settle second first session effect' effect hsecond' hfirst']
  exact session.settle_comm effect effect'
    (apart_of_independent first second _ _ effect effect' h heffect hsecond') hdone

/-! ### Runs -/

/-- A run with two neighbours in the middle. -/
theorem evalAll_append_pair (before after : List Statement) (first second : Statement)
    (session : Session) :
    evalAll (before ++ first :: second :: after) session =
      ((evalAll before session).andThen fun reached =>
        (first.eval reached).andThen second.eval).andThen (evalAll after) := by
  -- The pair is put in brackets of its own, between what comes before and after.
  rw [evalAll_append, Outcome.andThen_assoc]
  congr 1
  funext reached
  rw [evalAll_cons, Outcome.andThen_assoc]
  congr 1
  funext later
  exact evalAll_cons second after later

/-- In the middle of a completed run, independent neighbours can be evaluated in either
    order. -/
theorem evalAll_swap_of_completed (before after : List Statement) (first second : Statement)
    (session : Session) (h : first.Independent second)
    (hdone : (evalAll (before ++ first :: second :: after) session).Completed) :
    evalAll (before ++ second :: first :: after) session =
      evalAll (before ++ first :: second :: after) session := by
  rw [evalAll_append_pair] at hdone
  rw [evalAll_append_pair, evalAll_append_pair]
  -- What stands behind the pair starts in the same session either way.
  rcases (Outcome.completed_andThen_iff _ _).mp hdone with ⟨hpair, _⟩
  rcases (Outcome.completed_andThen_iff _ _).mp hpair with ⟨⟨earlier, hearlier⟩, hboth⟩
  rw [Outcome.andThen_of_ok _ _ earlier hearlier, Outcome.andThen_of_ok _ _ earlier hearlier,
    eval_comm first second _ h hboth]

/-- Independent neighbours may change places, whatever stands around them. The run
    completes with them in one order exactly if it does with them in the other,
    and then it has the same value, the same output and the same variables. -/
theorem evalAll_swap_iff (before after : List Statement) (first second : Statement)
    (session : Session) (h : first.Independent second) :
    let original := evalAll (before ++ first :: second :: after) session
    let swapped := evalAll (before ++ second :: first :: after) session
    (swapped.Completed ↔ original.Completed) ∧
    ∀ value, original.answer = .ok value →
      swapped.answer = .ok value ∧
      swapped.session.output = original.session.output ∧
      swapped.session.environment = original.session.environment := by
  intro original swapped
  refine ⟨⟨fun hdone => ?_, fun hdone => ?_⟩, fun value hvalue => ?_⟩
  · -- Independence is symmetric, so swapping back is swapping as well.
    have hsame : original = swapped :=
      evalAll_swap_of_completed before after second first session h.symm hdone
    rw [hsame]
    exact hdone
  · have hsame : swapped = original :=
      evalAll_swap_of_completed before after first second session h hdone
    rw [hsame]
    exact hdone
  · have hsame : swapped = original :=
      evalAll_swap_of_completed before after first second session h ⟨value, hvalue⟩
    rw [hsame]
    exact ⟨hvalue, rfl, rfl⟩

/-- A binding may go in front of a print statement that reads the same name. The output
    has room for both texts and for nothing more, in either order. -/
theorem kept_of_binding_in_front :
    let before := ofTokens (Token.ofText "let x 12 ; add x x ;")
    let first : Statement := ⟨[⟨.keyword .println, 1⟩, ⟨.identifier "x", 2⟩, ⟨.separator, 2⟩]⟩
    let second : Statement :=
      ⟨[⟨.keyword .bind, 3⟩, ⟨.identifier "y", 3⟩, ⟨.identifier "x", 3⟩, ⟨.separator, 3⟩]⟩
    let after := ofTokens (Token.ofText "print y ; let x y ;")
    let session : Session := ⟨.empty, .limited 5 "full"⟩
    first.Independent second ∧
    (evalAll (before ++ first :: second :: after) session).answer = .ok (some (.int 24)) ∧
    (evalAll (before ++ second :: first :: after) session).answer = .ok (some (.int 24)) ∧
    (evalAll (before ++ second :: first :: after) session).session.output.kept =
      "12\n12".toUTF8 := by
  intro before first second after session
  have hfirst : first.form? = some (.write ⟨.name "x", 2⟩ true) := rfl
  have hsecond : second.form? = some (.bind "y" ⟨.name "x", 3⟩) := rfl
  have hindependent : first.Independent second := by
    refine ⟨?_, ?_, fun name htarget => ?_, fun name htarget => ?_⟩
    · intro hboth
      rcases hboth.2 with ⟨operand, newline, hform⟩
      rw [hsecond] at hform
      exact absurd hform (by simp only [Option.some.injEq, reduceCtorEq, not_false_eq_true])
    · intro hboth
      rcases hboth.1 with ⟨op, left, right, hform⟩
      rw [hfirst] at hform
      exact absurd hform (by simp only [Option.some.injEq, reduceCtorEq, not_false_eq_true])
    · -- The print statement binds nothing.
      rw [target?, hfirst] at htarget
      exact absurd htarget (by simp only [Option.bind_some, Command.target?, reduceCtorEq,
        not_false_eq_true])
    · have hname : "y" = name := Option.some.inj htarget
      subst hname
      refine ⟨fun hreads => ?_, by decide⟩
      rcases hreads with ⟨operand, hoperand, hitem⟩
      rw [List.mem_singleton.mp hoperand] at hitem
      exact absurd hitem (by decide)
  have hvalue : (evalAll (before ++ first :: second :: after) session).answer =
      .ok (some (.int 24)) := by
    decide +kernel
  have hswap := (evalAll_swap_iff before after first second session hindependent).2 _ hvalue
  refine ⟨hindependent, hvalue, hswap.1, ?_⟩
  rw [hswap.2.1]
  decide +kernel

end Statement

end PrefixScript
