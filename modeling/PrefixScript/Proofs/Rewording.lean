import PrefixScript.Proofs.Extension

/-!
# Rewording

The same script in other words.

A script can be reworded without changing what it says: its variables can be
given other names, and its tokens can be put on other lines. Neither the names
nor the lines mean anything by themselves. A name only has to be told from the
other names, which is why a rewording has to keep different names different; a
line is only ever reported, so it may become any other line.

Reading a statement, evaluating it and running a script all commute with a
rewording, one lemma for each function. What comes out is the outcome in other
words: the same values and the same output, the variables under their new
names, and a fault that quotes the new name and the new line.

## Main definitions

* `Rewording`: New names and new lines.
* `Rewording.token`, `Rewording.operand`, `Rewording.command`,
  `Rewording.statement`: Parts of a script in other words.
* `Rewording.cause`, `Rewording.fault`: Reports in other words.
* `Rewording.Environments`, `Rewording.Sessions`, `Rewording.Outcomes`: One is the
  other in other words.

## Theorems

* `command?_statement`: A reworded statement is the reworded command.
* `eval_statement`: A statement in other words has its outcome in other words.
* `evalAll_statement`: So has a run.
* `ofTokens_located`: Reworded tokens are cut into the reworded statements.
* `evalAll_relocate`: Other lines change nothing but the line of a fault.
-/

namespace PrefixScript

/-- New names for all names, and new lines for all lines. -/
structure Rewording where
  name : String → String
  line : Nat → Nat

/-- The fault on another line. -/
def Fault.relocate (f : Nat → Nat) (fault : Fault) : Fault :=
  ⟨fault.cause, f fault.line⟩

namespace Rewording

variable (wording : Rewording)

/-- A token with a new name, if it is a name. -/
def token : Token → Token
  | .identifier x => .identifier (wording.name x)
  | .keyword k => .keyword k
  | .literal v => .literal v
  | .separator => .separator
  | .oversized digits => .oversized digits

/-- An operand with a new name, if it is a name. -/
def operand : Operand → Operand
  | .name x => .name (wording.name x)
  | .literal v => .literal v
  | .oversized digits => .oversized digits

/-- Something changed, on a new line. -/
def located {α : Type} (change : α → α) (old : Located α) : Located α :=
  (old.map change).relocate wording.line

/-- A command in other words. -/
def command : Command → Command
  | .bind target source => .bind (wording.name target) (wording.located wording.operand source)
  | .write operand newline => .write (wording.located wording.operand operand) newline
  | .compute op left right =>
    .compute op (wording.located wording.operand left) (wording.located wording.operand right)

/-- A statement in other words. -/
def statement (old : Statement) : Statement :=
  ⟨old.tokens.map (wording.located wording.token)⟩

/-- A cause that quotes the new name. -/
def cause : Cause → Cause
  | .unknownVariable x => .unknownVariable (wording.name x)
  | .literalTooLarge digits => .literalTooLarge digits
  | .outputFailed details => .outputFailed details

/-- A fault in other words. -/
def fault (old : Fault) : Fault :=
  ⟨wording.cause old.cause, wording.line old.line⟩

/-- The variables of the second environment are those of the first, under their new
    names. -/
structure Environments (env env' : Environment) : Prop where
  new : ∀ x, env'.get? (wording.name x) = env.get? x
  other : ∀ y, (∀ x, wording.name x ≠ y) → env'.get? y = none

/-- The variables have their new names, and the output is the same. -/
structure Sessions (session session' : Session) : Prop where
  environment : wording.Environments session.environment session'.environment
  output : session'.output = session.output

/-- The answer is the same, or it is the fault in other words. -/
structure Outcomes (outcome outcome' : Outcome) : Prop where
  answer : outcome'.answer = outcome.answer.mapError wording.fault
  session : wording.Sessions outcome.session outcome'.session

/-! ### Reading -/

theorem token_eq_separator_iff (old : Token) : wording.token old = .separator ↔ old = .separator := by
  cases old <;> simp only [token, reduceCtorEq]

theorem ofToken?_token (old : Token) :
    Operand.ofToken? (wording.token old) = (Operand.ofToken? old).map wording.operand := by
  cases old <;> rfl

theorem operand?_located (old : Located Token) :
    (wording.located wording.token old).operand? =
      old.operand?.map (wording.located wording.operand) := by
  simp only [Located.operand?, located, Located.relocate, Located.map_item, Located.map_line,
    ofToken?_token, Option.map_map]
  rfl

theorem operands?_located (tokens : List (Located Token)) :
    Statement.operands? (tokens.map (wording.located wording.token)) =
      (Statement.operands? tokens).map (List.map (wording.located wording.operand)) := by
  -- The last token has to be the separator; the others are read one by one.
  induction tokens with
  | nil => rfl
  | cons first rest ih =>
      by_cases hrest : rest = []
      · subst hrest
        simp only [List.map_cons, List.map_nil, Statement.operands?_singleton, located,
          Located.relocate, Located.map_item, token_eq_separator_iff]
        split
        · rfl
        · rfl
      · have hne : rest.map (wording.located wording.token) ≠ [] := by
          rw [ne_eq, List.map_eq_nil_iff]
          exact hrest
        rw [List.map_cons, Statement.operands?_cons_of_ne_nil _ _ hne,
          Statement.operands?_cons_of_ne_nil first rest hrest, operand?_located, ih]
        cases first.operand? with
        | none => rfl
        | some operand => cases Statement.operands? rest <;> rfl

theorem ofOperands?_located (keyword : Keyword) (operands : List (Located Operand)) :
    Command.ofOperands? keyword (operands.map (wording.located wording.operand)) =
      (Command.ofOperands? keyword operands).map wording.command := by
  -- By the number of operands; the first of a binding must be a name.
  rcases operands with _ | ⟨⟨first, line⟩, _ | ⟨second, _ | ⟨third, rest⟩⟩⟩
  · cases keyword <;> rfl
  · cases keyword <;> cases first <;> rfl
  · cases keyword <;> cases first <;> rfl
  · cases keyword <;> cases first <;> rfl

/-- Reading a reworded statement gives the reworded command. -/
theorem command?_statement (old : Statement) :
    (wording.statement old).command? = old.command?.map wording.command := by
  rcases old with ⟨_ | ⟨⟨head, line⟩, rest⟩⟩
  · rfl
  · cases head with
    | keyword k =>
        -- The operands are reworded one by one, and the keyword stays as it is.
        have hoperands := wording.operands?_located rest
        simp only [statement, Statement.command?, List.map_cons, located, Located.relocate,
          Located.map, token] at hoperands ⊢
        rw [hoperands]
        cases Statement.operands? rest with
        | none => rfl
        | some operands => exact wording.ofOperands?_located k operands
    | literal | identifier | separator | oversized => rfl

/-! ### Evaluation -/

section Evaluation

variable (hname : Function.Injective wording.name)

theorem valueOf_located (env env' : Environment) (h : wording.Environments env env')
    (old : Located Operand) :
    env'.valueOf (wording.located wording.operand old) =
      (env.valueOf old).mapError wording.fault := by
  rcases old with ⟨item, line⟩
  cases item with
  | literal v => rfl
  | oversized digits => rfl
  | name x =>
      -- The new name is bound if the old one is; if not, the fault quotes the new name.
      simp only [Environment.valueOf, located, Located.relocate, Located.map, operand, h.new x]
      cases env.get? x <;> rfl

include hname in
/-- Different names stay different, so binding one of them leaves the others
    alone. -/
theorem environments_insert (env env' : Environment) (h : wording.Environments env env')
    (target : String) (v : Value) :
    wording.Environments (env.insert target v) (env'.insert (wording.name target) v) := by
  refine ⟨fun x => ?_, fun y hy => ?_⟩
  · -- Different names stay different, so the new target hides what the old one does.
    rw [Environment.get?_insert, Environment.get?_insert, h.new x]
    simp only [hname.eq_iff]
  · rw [Environment.get?_insert_other env' _ y v (hy target)]
    exact h.other y hy

theorem outcomes_withValue (session session' : Session) (h : wording.Sessions session session')
    (old : Located Operand) (next next' : Value → Outcome)
    (hnext : ∀ v, wording.Outcomes (next v) (next' v)) :
    wording.Outcomes (session.withValue old next)
      (session'.withValue (wording.located wording.operand old) next') := by
  simp only [Session.withValue, wording.valueOf_located _ _ h.environment old]
  cases session.environment.valueOf old with
  | ok v => exact hnext v
  | error fault => exact ⟨rfl, h⟩

theorem sessions_write (session session' : Session) (h : wording.Sessions session session')
    (text : String) : wording.Sessions (session.write text) (session'.write text) :=
  ⟨h.environment, congrArg (Sink.write · text) h.output⟩

theorem outcomes_emit (session session' : Session) (h : wording.Sessions session session')
    (v : Value) (newline : Bool) (line : Nat) :
    wording.Outcomes (session.emit v newline line)
      (session'.emit v newline (wording.line line)) := by
  have hwrite := wording.sessions_write session session' h (v.printed newline)
  simp only [Session.emit, h.output]
  -- The outputs are the same, so both take the text or both refuse it.
  split
  · exact ⟨rfl, hwrite⟩
  · exact ⟨rfl, hwrite⟩

include hname in
theorem eval_command (old : Command) (session session' : Session)
    (h : wording.Sessions session session') :
    wording.Outcomes (old.eval session) ((wording.command old).eval session') := by
  cases old with
  | bind target source =>
      refine wording.outcomes_withValue session session' h source _ _ fun v => ⟨rfl, ?_, h.output⟩
      exact wording.environments_insert hname _ _ h.environment target v
  | write operand newline =>
      exact wording.outcomes_withValue session session' h operand _ _ fun v =>
        wording.outcomes_emit session session' h v newline operand.line
  | compute op left right =>
      -- Two operands, the second of which is only looked at if the first has a value.
      exact wording.outcomes_withValue session session' h left _ _ fun l =>
        wording.outcomes_withValue session session' h right _ _ fun r => ⟨rfl, h⟩

include hname in
/-- A statement in other words has its outcome in other words. -/
theorem eval_statement (old : Statement) (session session' : Session)
    (h : wording.Sessions session session') :
    wording.Outcomes (old.eval session) ((wording.statement old).eval session') := by
  simp only [Statement.eval, command?_statement]
  cases old.command? with
  | some command => exact wording.eval_command hname command session session' h
  | none => exact ⟨rfl, h⟩

theorem outcomes_andThen (outcome outcome' : Outcome) (next next' : Session → Outcome)
    (h : wording.Outcomes outcome outcome')
    (hnext : ∀ session session', wording.Sessions session session' →
      wording.Outcomes (next session) (next' session')) :
    wording.Outcomes (outcome.andThen next) (outcome'.andThen next') := by
  have hanswer := h.answer
  cases houtcome : outcome.answer with
  | error fault =>
      rw [houtcome] at hanswer
      rw [Outcome.andThen_of_error outcome next fault houtcome,
        Outcome.andThen_of_error outcome' next' _ hanswer]
      exact h
  | ok earlier =>
      rw [houtcome] at hanswer
      rw [Outcome.andThen_of_ok outcome next earlier houtcome,
        Outcome.andThen_of_ok outcome' next' earlier hanswer]
      -- The sessions reached are related, which is what the next part asks for.
      have hlater := hnext _ _ h.session
      refine ⟨?_, hlater.session⟩
      simp only [hlater.answer]
      cases (next outcome.session).answer <;> rfl

include hname in
/-- A run in other words has its outcome in other words. -/
theorem evalAll_statement (statements : List Statement) (session session' : Session)
    (h : wording.Sessions session session') :
    wording.Outcomes (Statement.evalAll statements session)
      (Statement.evalAll (statements.map wording.statement) session') := by
  induction statements generalizing session session' with
  | nil => exact ⟨rfl, h⟩
  | cons first rest ih =>
      rw [List.map_cons, Statement.evalAll_cons, Statement.evalAll_cons]
      exact wording.outcomes_andThen _ _ _ _ (wording.eval_statement hname first session session' h) ih

end Evaluation

/-! ### Cutting -/

/-- Reworded tokens are cut into the reworded statements, since no separator is
    lost and none is added. -/
theorem ofTokens_located (tokens : List (Located Token)) :
    Statement.ofTokens (tokens.map (wording.located wording.token)) =
      (Statement.ofTokens tokens).map wording.statement := by
  induction tokens with
  | nil => rfl
  | cons first rest ih =>
      -- No new token becomes a separator or stops being one, so the cuts stay.
      have hiff : (wording.located wording.token first).item = .separator ↔
          first.item = .separator := wording.token_eq_separator_iff first.item
      rw [List.map_cons, Statement.ofTokens_cons, Statement.ofTokens_cons, ih, Statement.prepend,
        Statement.prepend]
      by_cases hseparator : first.item = .separator
      · rw [if_pos (hiff.mpr hseparator), if_pos hseparator]
        rfl
      · rw [if_neg fun hnew => hseparator (hiff.mp hnew), if_neg hseparator]
        cases Statement.ofTokens rest <;> rfl

/-! ### Other lines -/

/-- The same words on other lines. -/
def onLines (f : Nat → Nat) : Rewording :=
  ⟨id, f⟩

theorem located_onLines (f : Nat → Nat) (old : Located Token) :
    (onLines f).located (onLines f).token old = old.relocate f := by
  rcases old with ⟨item, line⟩
  cases item <;> rfl

theorem fault_onLines (f : Nat → Nat) (old : Fault) : (onLines f).fault old = old.relocate f := by
  rcases old with ⟨cause, line⟩
  cases cause <;> rfl

theorem sessions_onLines_iff (f : Nat → Nat) (session session' : Session) :
    (onLines f).Sessions session session' ↔ session' = session := by
  constructor
  · rintro ⟨⟨hnew, _⟩, houtput⟩
    -- All names are old names here, so the environments agree everywhere.
    have henv := Environment.eq_of_get?_eq session'.environment session.environment hnew
    rcases session with ⟨env, output⟩
    rcases session' with ⟨env', output'⟩
    simp only at henv houtput
    rw [henv, houtput]
  · rintro rfl
    exact ⟨⟨fun x => rfl, fun y hy => absurd rfl (hy y)⟩, rfl⟩

end Rewording

/-- The same tokens on other lines make the same run, but for the line of a
    fault. -/
theorem Statement.evalAll_relocate (f : Nat → Nat) (tokens : List (Located Token))
    (session : Session) :
    evalAll (ofTokens (tokens.map (Located.relocate f))) session =
      ⟨(evalAll (ofTokens tokens) session).answer.mapError (Fault.relocate f),
        (evalAll (ofTokens tokens) session).session⟩ := by
  have htokens : tokens.map (Located.relocate f) =
      tokens.map ((Rewording.onLines f).located (Rewording.onLines f).token) :=
    List.map_congr_left fun token _ => (Rewording.located_onLines f token).symm
  have hrun := (Rewording.onLines f).evalAll_statement Function.injective_id (ofTokens tokens)
    session session ((Rewording.sessions_onLines_iff f session session).mpr rfl)
  -- A wording that keeps all names relates a session to itself only.
  have hsession := (Rewording.sessions_onLines_iff f _ _).mp hrun.session
  rw [htokens, Rewording.ofTokens_located, ← hsession,
    ← funext (Rewording.fault_onLines f), ← hrun.answer]

end PrefixScript
