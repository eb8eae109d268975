import PrefixScript.Command
import PrefixScript.Environment
import PrefixScript.Fault
import PrefixScript.Sink

/-!
# Sessions

What statements work on, and what evaluating them leaves behind.

A session is all there is between two statements: the variables bound so far
and the output written so far. Evaluation answers with a value, with no value,
or with a fault, and in each case there is a session afterwards. A fault does
not undo anything, so the session after it is the one that was reached.

Evaluations are put one after the other by `Outcome.andThen`. It stops at the
first fault and otherwise answers with the latest value, so that a statement
without a value does not hide an earlier one. The operation is associative with
`Outcome.idle` as its unit, which is why a list of statements can be evaluated
in any number of pieces.

## Main definitions

* `Session`: Variables and output.
* `Outcome`: The answer of an evaluation and the session after it.
* `Outcome.idle`: Doing nothing.
* `Outcome.andThen`: Doing something else afterwards.

## Theorems

* `idle_andThen`, `andThen_idle`, `andThen_assoc`: Outcomes in sequence form a
  monoid.
-/

namespace PrefixScript

/-- What statements read and change. -/
structure Session where
  environment : Environment
  output : Sink

namespace Session

/-- The session in which a script starts: nothing is bound yet. -/
def start (output : Sink) : Session :=
  ⟨.empty, output⟩

/-- Bind a variable. -/
def bind (session : Session) (name : String) (v : Value) : Session :=
  { session with environment := session.environment.insert name v }

/-- Write a text to the output. -/
def write (session : Session) (text : String) : Session :=
  { session with output := session.output.write text }

end Session

/-- What an evaluation leaves: its answer, and the session after it. -/
structure Outcome where
  answer : Except Fault (Option Value)
  session : Session

namespace Outcome

/-- The outcome of doing nothing. -/
def idle (session : Session) : Outcome :=
  ⟨.ok none, session⟩

/-- The outcome of stopping with a fault. -/
def stopped (fault : Fault) (session : Session) : Outcome :=
  ⟨.error fault, session⟩

/-- The latest value of two evaluations, the first of which answered with
    `earlier`. -/
def latest (earlier : Option Value) : Except Fault (Option Value) → Except Fault (Option Value)
  | .ok later => .ok (later.or earlier)
  | .error fault => .error fault

/-- Go on in the session that was reached, unless it was reached by a fault. -/
def andThen (outcome : Outcome) (next : Session → Outcome) : Outcome :=
  match outcome.answer with
  | .error _ => outcome
  | .ok earlier => ⟨latest earlier (next outcome.session).answer, (next outcome.session).session⟩

theorem latest_none (answer : Except Fault (Option Value)) : latest none answer = answer := by
  cases answer with
  | ok later => simp only [latest, Option.or_none]
  | error fault => rfl

@[simp] theorem idle_andThen (session : Session) (next : Session → Outcome) :
    (idle session).andThen next = next session := by
  simp only [andThen, idle, latest_none]

@[simp] theorem andThen_idle (outcome : Outcome) : outcome.andThen idle = outcome := by
  cases outcome with
  | mk answer session =>
      cases answer with
      | ok value => simp only [andThen, idle, latest, Option.none_or]
      | error fault => rfl

theorem andThen_assoc (outcome : Outcome) (next after : Session → Outcome) :
    (outcome.andThen next).andThen after =
      outcome.andThen fun session => (next session).andThen after := by
  cases outcome with
  | mk answer session =>
      cases answer with
      | error fault => rfl
      | ok earlier =>
          simp only [andThen]
          -- Behind the first fault nothing is evaluated, however the rest is grouped.
          cases hnext : (next session).answer with
          | error fault => simp only [latest, hnext]
          | ok later =>
              simp only [latest]
              cases (after (next session).session).answer with
              | error fault => rfl
              | ok last => simp only [Option.or_assoc]

end Outcome

end PrefixScript
