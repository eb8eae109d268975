import PrefixScript.Proofs.Rewording

/-!
# Renaming

The same script with other names for its variables.

A name is only ever compared with other names. No rule looks at how it is
written, so it may become any text at all: the empty one, one that is spelled
like a keyword or a separator, or one that no lexeme could ever be. What a
renaming has to do is to keep different names different. Then the renamed run,
started in the renamed environment, goes through the same outcomes with the new
names in them.

Environments are finite, and a renamed one is built from the bindings of the old
one. As no two of them get the same name, none of them is lost.

A renaming that gives two variables one name is noticed by some script: bind
both of them, and ask for the one that was bound first.

## Main definitions

* `Token.rename`, `Fault.rename`: A name in a token or in a fault, exchanged.
* `Environment.rename`: All names of an environment exchanged.
* `Session.rename`: The session with the renamed environment.

## Theorems

* `get?_rename_eq_some_iff`: What a renamed environment binds.
* `environments_onNames_iff`: An environment has the new names just if it is the
  renamed one.
* `evalAll_rename`: A run under other names.
* `injective_iff_answer_rename`: No renaming that merges two names would do.
-/

namespace PrefixScript

/-- The same lines, under other names. -/
def Rewording.onNames (f : String → String) : Rewording :=
  ⟨f, id⟩

/-- A token with a new name, if it is a name. -/
def Token.rename (f : String → String) (token : Token) : Token :=
  (Rewording.onNames f).token token

/-- A fault that quotes the new name, if it quotes a name. -/
def Fault.rename (f : String → String) (fault : Fault) : Fault :=
  ⟨(Rewording.onNames f).cause fault.cause, fault.line⟩

namespace Environment

/-- Bind the new names to what the old ones were bound to. -/
def renameBindings (f : String → String) (bindings : List (String × Value)) : Environment :=
  bindings.foldr (fun (name, v) env => env.insert (f name) v) .empty

/-- All variables under their new names. -/
def rename (f : String → String) (env : Environment) : Environment :=
  renameBindings f env.toList

end Environment

/-- The variables under their new names, and the same output. -/
def Session.rename (f : String → String) (session : Session) : Session :=
  { session with environment := session.environment.rename f }

section Renaming

variable (f : String → String) (hf : Function.Injective f)

/-! ### Environments -/

namespace Environment

include hf in
/-- Bindings that agree on the value of a name still do under new names. -/
theorem get?_renameBindings_eq_some_iff (bindings : List (String × Value))
    (hagree : ∀ x v w, (x, v) ∈ bindings → (x, w) ∈ bindings → v = w) (y : String) (v : Value) :
    (renameBindings f bindings).get? y = some v ↔ ∃ x, f x = y ∧ (x, v) ∈ bindings := by
  -- From the last binding to the first, which is the order they are bound in.
  induction bindings with
  | nil =>
      simp only [renameBindings, List.foldr_nil, get?_empty, reduceCtorEq, List.not_mem_nil,
        and_false, exists_false]
  | cons first rest ih =>
      rcases first with ⟨name, w⟩
      have hrest := ih fun x v w hv hw =>
        hagree x v w (List.mem_cons_of_mem _ hv) (List.mem_cons_of_mem _ hw)
      change ((renameBindings f rest).insert (f name) w).get? y = some v ↔ _
      by_cases hname : f name = y
      · -- The first binding is the one that counts.
        subst hname
        rw [get?_insert_self, Option.some.injEq]
        constructor
        · intro hw
          subst hw
          exact ⟨name, rfl, List.mem_cons_self⟩
        · rintro ⟨x, hx, hmem⟩
          rw [hf hx] at hmem
          exact hagree name w v List.mem_cons_self hmem
      · -- A later binding counts, and it is not for this name.
        rw [get?_insert_other _ _ _ _ hname, hrest]
        constructor
        · rintro ⟨x, hx, hmem⟩
          exact ⟨x, hx, List.mem_cons_of_mem _ hmem⟩
        · rintro ⟨x, hx, hmem⟩
          refine ⟨x, hx, (List.mem_cons.mp hmem).resolve_left fun heq => hname ?_⟩
          rw [← hx, (Prod.mk.inj heq).1]

include hf in
/-- The renamed environment binds the new names of what is bound, and nothing
    else. -/
theorem get?_rename_eq_some_iff (env : Environment) (y : String) (v : Value) :
    (env.rename f).get? y = some v ↔ ∃ x, f x = y ∧ env.get? x = some v := by
  -- A name stands for one value in the list of bindings.
  have hagree : ∀ x v w, (x, v) ∈ env.toList → (x, w) ∈ env.toList → v = w := by
    intro x v w hv hw
    rw [mem_toList_iff] at hv hw
    exact Option.some.inj (hv.symm.trans hw)
  rw [rename, get?_renameBindings_eq_some_iff f hf env.toList hagree]
  simp only [mem_toList_iff]

end Environment

/-- A script starts without names. -/
theorem Session.rename_start (output : Sink) : (start output).rename f = start output :=
  rfl

/-! ### Reworded sessions -/

namespace Rewording

include hf in
/-- There is one environment that has the new names. -/
theorem environments_onNames_iff (env env' : Environment) :
    (onNames f).Environments env env' ↔ env' = env.rename f := by
  constructor
  · rintro ⟨hnew, hother⟩
    refine Environment.eq_of_get?_eq _ _ fun y => Option.ext fun v => ?_
    rw [Environment.get?_rename_eq_some_iff f hf]
    by_cases hy : ∃ x, f x = y
    · -- A new name belongs to one old name only.
      obtain ⟨x, rfl⟩ := hy
      have hx : env'.get? (f x) = env.get? x := hnew x
      rw [hx]
      exact ⟨fun hv => ⟨x, rfl, hv⟩, fun ⟨x', hx', hv⟩ => hf hx' ▸ hv⟩
    · have hnone : env'.get? y = none := hother y fun x hx => hy ⟨x, hx⟩
      rw [hnone]
      exact ⟨fun hv => absurd hv (by simp only [reduceCtorEq, not_false_eq_true]),
        fun ⟨x, hx, _⟩ => absurd ⟨x, hx⟩ hy⟩
  · rintro rfl
    refine ⟨fun x => Option.ext fun v => ?_, fun y hy => Option.eq_none_iff_forall_ne_some.mpr ?_⟩
    · rw [Environment.get?_rename_eq_some_iff f hf]
      exact ⟨fun ⟨x', hx', hv⟩ => hf hx' ▸ hv, fun hv => ⟨x, rfl, hv⟩⟩
    · intro v hv
      obtain ⟨x, hx, _⟩ := (Environment.get?_rename_eq_some_iff f hf env y v).mp hv
      exact hy x hx

include hf in
theorem sessions_onNames_iff (session session' : Session) :
    (onNames f).Sessions session session' ↔ session' = session.rename f := by
  rcases session with ⟨env, output⟩
  rcases session' with ⟨env', output'⟩
  constructor
  · rintro ⟨henv, houtput⟩
    rw [environments_onNames_iff f hf] at henv
    simp only at henv houtput
    rw [henv, houtput]
    rfl
  · rintro h
    injection h with henv houtput
    exact ⟨(environments_onNames_iff f hf env env').mpr henv, houtput⟩

end Rewording

/-! ### Runs -/

namespace Statement

include hf in
theorem outcomes_evalAll_rename (tokens : List (Located Token)) (session : Session) :
    (Rewording.onNames f).Outcomes (evalAll (ofTokens tokens) session)
      (evalAll (ofTokens (tokens.map (Located.map (Token.rename f)))) (session.rename f)) := by
  have hrun := (Rewording.onNames f).evalAll_statement hf (ofTokens tokens) session
    (session.rename f) ((Rewording.sessions_onNames_iff f hf _ _).mpr rfl)
  -- The tokens are renamed before they are cut, and the statements after it.
  rw [← Rewording.ofTokens_located] at hrun
  exact hrun

include hf in
/-- Under other names, tokens make the same run: it has the same answer or the fault
    with the new name, the same output, and the same variables under their new
    names. -/
theorem evalAll_rename (tokens : List (Located Token)) (session : Session) :
    let outcome := evalAll (ofTokens tokens) session
    let renamed := evalAll (ofTokens (tokens.map (Located.map (Token.rename f)))) (session.rename f)
    renamed.answer = outcome.answer.mapError (Fault.rename f) ∧
    renamed.session.output = outcome.session.output ∧
    renamed.session.environment = outcome.session.environment.rename f ∧
    ∀ y v, renamed.session.environment.get? y = some v ↔
      ∃ x, f x = y ∧ outcome.session.environment.get? x = some v := by
  intro outcome renamed
  have hrun : (Rewording.onNames f).Outcomes outcome renamed :=
    outcomes_evalAll_rename f hf tokens session
  have hsession : renamed.session = outcome.session.rename f :=
    (Rewording.sessions_onNames_iff f hf _ _).mp hrun.session
  refine ⟨hrun.answer, hrun.session.output, congrArg Session.environment hsession, fun y v => ?_⟩
  rw [hsession]
  exact outcome.session.environment.get?_rename_eq_some_iff f hf y v

end Statement

end Renaming

namespace Statement

/-- A run under names that no text spells. The unknown name is quoted as it is now,
    and the name `x` is unknown afterwards. -/
theorem run_of_prefixed_names :
    let f := fun name => "let ; " ++ name
    let tokens := Token.ofText "let x 7 ;\nprintln x ; println y ;"
    let session : Session := ⟨.insert .empty "z" (.bool true), .limited 2 "full"⟩
    let renamed := evalAll (ofTokens (tokens.map (Located.map (Token.rename f)))) (session.rename f)
    renamed.answer = .error ⟨.unknownVariable "let ; y", 2⟩ ∧
    renamed.session.output.kept = "7\n".toUTF8 ∧
    renamed.session.environment.get? "let ; x" = some (.int 7) ∧
    renamed.session.environment.get? "let ; z" = some (.bool true) ∧
    renamed.session.environment.get? "x" = none := by
  intro f tokens session renamed
  have hf : Function.Injective f := fun _ _ h => (String.append_right_inj "let ; ").mp h
  obtain ⟨hanswer, houtput, -, hget⟩ := evalAll_rename f hf tokens session
  have hold : (evalAll (ofTokens tokens) session).answer = .error ⟨.unknownVariable "y", 2⟩ := by
    decide +kernel
  refine ⟨?_, ?_, ?_, ?_, ?_⟩
  · rw [hanswer, hold]
    rfl
  · rw [houtput]
    decide +kernel
  · exact (hget _ _).mpr ⟨"x", rfl, by decide +kernel⟩
  · exact (hget _ _).mpr ⟨"z", rfl, by decide +kernel⟩
  · refine Option.eq_none_iff_forall_ne_some.mpr fun v hv => ?_
    obtain ⟨x, hx, -⟩ := (hget _ _).mp hv
    -- The old name would have to be shorter than its own prefix.
    have hlength := congrArg String.length hx
    rw [String.length_append] at hlength
    change 6 + x.length = 1 at hlength
    omega

end Statement

/-! ### Merged names -/

namespace Token

/-- Tokens that bind two names, and ask whether the first one still has its value. -/
def probe (x y : String) : List (Located Token) :=
  [.keyword .bind, .identifier x, .literal (.bool true), .separator,
    .keyword .bind, .identifier y, .literal (.bool false), .separator,
    .keyword (.operator .eq), .identifier x, .literal (.bool true), .separator].map (⟨·, 1⟩)

theorem map_rename_probe (f : String → String) (x y : String) :
    (probe x y).map (Located.map (rename f)) = probe (f x) (f y) :=
  rfl

/-- The first name has kept its value if it is not the second name. -/
theorem answer_ofTokens_probe (x y : String) (output : Sink) :
    (Outcome.ofTokens (probe x y) output).answer = .ok (some (.bool (decide (x ≠ y)))) := by
  let env := (Environment.empty.insert x (.bool true)).insert y (.bool false)
  have hget : env.get? x = some (.bool (decide (x ≠ y))) := by
    by_cases hxy : x = y
    · subst hxy
      rw [Environment.get?_insert_self, decide_eq_false (not_not.mpr rfl)]
    · rw [Environment.get?_insert_other _ _ _ _ (Ne.symm hxy), Environment.get?_insert_self,
        decide_eq_true hxy]
  -- The two bindings answer nothing, so the answer is that of the comparison.
  have hrun : Outcome.ofTokens (probe x y) output = (Outcome.idle ⟨env, output⟩).andThen
      (Command.compute .eq ⟨.name x, 1⟩ ⟨.literal (.bool true), 1⟩).eval := rfl
  rw [hrun, Outcome.idle_andThen]
  simp only [Command.eval, Session.withValue, Environment.valueOf, hget, Operator.answer?_eq,
    Operator.equal?, beq_true]

/-- A renaming keeps different names different just if no script gives it away by its
    answer. -/
theorem injective_iff_answer_rename (f : String → String) (output : Sink) :
    Function.Injective f ↔
      ∀ tokens, (Outcome.ofTokens (tokens.map (Located.map (rename f))) output).answer =
        (Outcome.ofTokens tokens output).answer.mapError (Fault.rename f) := by
  constructor
  · intro hf tokens
    have hrun := Statement.outcomes_evalAll_rename f hf tokens (Session.start output)
    rw [Session.rename_start] at hrun
    exact hrun.answer
  · intro h x y hxy
    -- The probe tells by its answer whether its two names are one.
    have hanswer := h (probe x y)
    rw [map_rename_probe, answer_ofTokens_probe, answer_ofTokens_probe] at hanswer
    simp only [Except.mapError, Except.ok.injEq, Option.some.injEq, Value.bool.injEq,
      decide_eq_decide] at hanswer
    exact not_not.mp fun hne => hanswer.mpr hne hxy

end Token

end PrefixScript
