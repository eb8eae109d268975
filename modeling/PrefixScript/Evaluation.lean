import PrefixScript.Session

/-!
# Evaluation

What statements do to a session.

An operand is given its value when its statement is evaluated and not before,
the left one before the right one, and the first that has no value ends the
script. Binding a variable copies a value, so a later binding of another
variable never changes it. Printing may fail, and then keeps what the output
took. Applying an operator only answers.

A statement that is no command is evaluated to nothing: it needs the value of
no operand and cannot fail.

## Main definitions

* `Environment.valueOf`: The value of an operand.
* `Session.emit`: Printing a value.
* `Command.eval`: Carrying out a command.
* `Statement.eval`: Evaluating a statement.
* `Statement.evalAll`: Evaluating statements in turn, up to the first fault.
* `Statement.trace`: The outcome of every statement on the way.

## Theorems

* `evalAll_cons`, `evalAll_append`: Statements are evaluated one after the other,
  in pieces of any size.
-/

namespace PrefixScript

/-- The value that an operand stands for, or the fault it causes. -/
def Environment.valueOf (env : Environment) (operand : Located Operand) : Except Fault Value :=
  match operand.item with
  | .literal v => .ok v
  | .oversized digits => .error ⟨.literalTooLarge digits, operand.line⟩
  | .name x =>
    match env.get? x with
    | some v => .ok v
    | none => .error ⟨.unknownVariable x, operand.line⟩

/-- The text that printing a value writes. -/
def Value.printed (v : Value) (newline : Bool) : String :=
  if newline then v.text ++ "\n" else v.text

namespace Session

/-- Go on with the value of an operand, or stop if it has none. -/
def withValue (session : Session) (operand : Located Operand) (next : Value → Outcome) : Outcome :=
  match session.environment.valueOf operand with
  | .ok v => next v
  | .error fault => .stopped fault session

/-- Print a value, on behalf of an operand on the given line. -/
def emit (session : Session) (v : Value) (newline : Bool) (line : Nat) : Outcome :=
  if session.output.accepts (v.printed newline) then
    .idle (session.write (v.printed newline))
  else
    .stopped ⟨.outputFailed session.output.failure, line⟩ (session.write (v.printed newline))

end Session

/-- Carry out a command. -/
def Command.eval (command : Command) (session : Session) : Outcome :=
  match command with
  | .bind target source =>
    session.withValue source fun v => .idle (session.bind target v)
  | .write operand newline =>
    session.withValue operand fun v => session.emit v newline operand.line
  | .compute op left right =>
    session.withValue left fun l => session.withValue right fun r => ⟨.ok (op.answer? l r), session⟩

namespace Statement

/-- Evaluate a statement: carry out the command it is, if it is one. -/
def eval (statement : Statement) (session : Session) : Outcome :=
  match statement.command? with
  | some command => command.eval session
  | none => .idle session

/-- Evaluate statements one after the other, up to the first fault. The answer
    is the last value that any of them gave. -/
def evalAll (statements : List Statement) (session : Session) : Outcome :=
  statements.foldl (fun outcome statement => outcome.andThen statement.eval) (.idle session)

/-- The outcomes of statements evaluated one after the other, each with the
    answer of its own statement; a fault is the last of them. -/
def trace : List Statement → Session → List Outcome
  | [], _ => []
  | statement :: rest, session =>
    let outcome := statement.eval session
    match outcome.answer with
    | .error _ => [outcome]
    | .ok _ => outcome :: trace rest outcome.session

@[simp] theorem evalAll_nil (session : Session) : evalAll [] session = .idle session := rfl

theorem foldl_andThen (statements : List Statement) (outcome : Outcome) :
    statements.foldl (fun outcome statement => outcome.andThen statement.eval) outcome =
      outcome.andThen (evalAll statements) := by
  induction statements generalizing outcome with
  | nil => exact (Outcome.andThen_idle outcome).symm
  | cons statement rest ih =>
      -- The induction hypothesis holds for every outcome, so it serves the run of the rest
      -- twice: from this outcome, and from the session it will have reached.
      have hall : evalAll (statement :: rest) = fun session =>
          (statement.eval session).andThen (evalAll rest) := by
        funext session
        rw [evalAll, List.foldl_cons, ih, Outcome.idle_andThen]
      rw [List.foldl_cons, ih, hall, Outcome.andThen_assoc]

theorem evalAll_cons (statement : Statement) (rest : List Statement) (session : Session) :
    evalAll (statement :: rest) session = (statement.eval session).andThen (evalAll rest) := by
  rw [evalAll, List.foldl_cons, foldl_andThen, Outcome.idle_andThen]

theorem evalAll_append (before after : List Statement) (session : Session) :
    evalAll (before ++ after) session = (evalAll before session).andThen (evalAll after) := by
  rw [evalAll, List.foldl_append, foldl_andThen after]
  rfl

end Statement

end PrefixScript
