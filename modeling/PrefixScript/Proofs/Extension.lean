import PrefixScript.Proofs.Partition
import PrefixScript.Proofs.Run
import PrefixScript.Script

/-!
# Extension

What becomes of a script when text is appended to it on a new line.

The past of a script does not depend on its future. The appended text has its
own lines and therefore its own tokens, the same as it would have alone but
further down. They cannot reach back into a statement that is closed, and only
the tokens that are not closed yet join them. So the longer script starts with
the statements of the shorter one, does the same with them, and then either has
stopped already or goes on from where the shorter script ends.

What the appended text can change is the rest of the output and the answer. The
answer changes only if a statement that is closed in it produces a value.

## Main definitions

* `Located.relocate`: Something on another line.
* `Statement.closedBehind`: The statements closed in the appended text.
* `Statement.Silent`: None of the statements produces a value.

## Theorems

* `ofLines_add`: The same lines further down have the same tokens further down.
* `ofText_append`: The tokens of a text on two pieces of it.
* `eq_none_of_silent`: Statements that produce no value have no answer.
* `ofText_append_newline`: A script is not affected by what is appended to it.
-/

namespace PrefixScript

/-- Something, on another line. -/
def Located.relocate {α : Type} (f : Nat → Nat) (located : Located α) : Located α :=
  ⟨located.item, f located.line⟩

namespace Token

theorem ofLine_add (number distance : Nat) (text : List Char) :
    ofLine (number + distance) text =
      (ofLine number text).map (Located.relocate (· + distance)) := by
  unfold ofLine
  split
  · rfl
  · -- Which token a lexeme is does not depend on the number of the line.
    rw [List.map_filterMap]
    simp only [Option.map_map]
    rfl

theorem ofLines_add (start distance : Nat) (texts : List (List Char)) :
    ofLines (start + distance) texts =
      (ofLines start texts).map (Located.relocate (· + distance)) := by
  induction texts generalizing start with
  | nil => rfl
  | cons text rest ih =>
      rw [ofLines_cons, ofLines_cons, List.map_append, ofLine_add, ← ih, Nat.add_right_comm]

/-- The tokens of a text that consists of two pieces. Those of the second piece are
    as far down as the first piece has lines. -/
theorem ofText_append (first second : String) :
    ofText (first ++ "\n" ++ second) =
      ofText first ++
        (ofText second).map (Located.relocate (· + (1 + first.toList.count '\n'))) := by
  -- The line feed between the texts is the cut between their lines.
  have hchars : (first ++ "\n" ++ second).toList = first.toList ++ '\n' :: second.toList := by
    rw [String.toList_append, String.toList_append, List.append_assoc]
    rfl
  rw [ofText, hchars, Text.lines_append_newline, ofLines_append, Text.length_lines, ofLines_add,
    Nat.add_comm (first.toList.count '\n') 1]
  rfl

end Token

namespace Statement

/-- The statements that are closed in the second text when it is appended to the
    first one on a new line. What the first text leaves unclosed is part of
    them. -/
def closedBehind (first second : String) : List Statement :=
  ofTokens (unclosed (Token.ofText first) ++
    (Token.ofText second).map (Located.relocate (· + (1 + first.toList.count '\n'))))

/-- None of the statements produces a value when they are evaluated one after the
    other. -/
def Silent (statements : List Statement) (session : Session) : Prop :=
  ∀ before statement after, statements = before ++ statement :: after →
    ∀ v, (statement.eval (evalAll before session).session).answer ≠ .ok (some v)

theorem silent_of_silent_append (before after : List Statement) (session : Session)
    (h : Silent (before ++ after) session) : Silent before session := by
  intro earlier statement later hsplit
  refine h earlier statement (later ++ after) ?_
  rw [hsplit, List.append_assoc, List.cons_append]

/-- Statements that produce no value have no answer. -/
theorem eq_none_of_silent (statements : List Statement) (session : Session)
    (value : Option Value) (hsilent : Silent statements session)
    (h : (evalAll statements session).answer = .ok value) : value = none := by
  induction statements using List.reverseRecOn generalizing value with
  | nil => exact (Except.ok.inj h).symm
  | append_singleton before statement ih =>
      rcases (completed_evalAll_concat_iff before statement session).mp ⟨value, h⟩ with
        ⟨⟨earlier, hearlier⟩, ⟨later, hlater⟩⟩
      have hsilent' := silent_of_silent_append before [statement] session hsilent
      have hbefore := ih earlier hsilent' hearlier
      rw [evalAll_concat, Outcome.andThen_of_ok _ _ earlier hearlier, hlater, hbefore,
        Outcome.latest_none] at h
      rw [← Except.ok.inj h]
      -- The last statement would be the one that produces a value.
      cases later with
      | none => rfl
      | some v => exact absurd hlater (hsilent before statement [] rfl v)

theorem ofTokens_ofText_append (first second : String) :
    ofTokens (Token.ofText (first ++ "\n" ++ second)) =
      ofTokens (Token.ofText first) ++ closedBehind first second := by
  rw [Token.ofText_append, ofTokens_append]
  rfl

end Statement

namespace Outcome

/-- A longer script goes on from where the shorter one ends. -/
theorem ofText_append_eq_andThen (first second : String) (output : Sink) :
    ofText (first ++ "\n" ++ second) output =
      (ofText first output).andThen (Statement.evalAll (Statement.closedBehind first second)) := by
  rw [ofText, ofTokens, Statement.ofTokens_ofText_append, Statement.evalAll_append]
  rfl

/-- A script is not affected by what is appended to it on a new line. Its tokens and
    its statements stay, and the new ones come behind. If it fails, it still
    fails in the same way and has done the same. If it does not, its output is
    still there, and so is its answer unless a statement that is closed in the
    appended text produces a value. -/
theorem ofText_append_newline (first second : String) (output : Sink) :
    let longer := first ++ "\n" ++ second
    Token.ofText longer = Token.ofText first ++
      (Token.ofText second).map (Located.relocate (· + (1 + first.toList.count '\n'))) ∧
    Statement.ofTokens (Token.ofText longer) =
      Statement.ofTokens (Token.ofText first) ++ Statement.closedBehind first second ∧
    (∀ fault, (ofText first output).answer = .error fault →
      ofText longer output = ofText first output) ∧
    (∀ value, (ofText first output).answer = .ok value →
      (∃ bytes, (ofText longer output).session.output.kept =
        (ofText first output).session.output.kept ++ bytes) ∧
      ∀ value', (ofText longer output).answer = .ok value' →
        Statement.Silent (Statement.closedBehind first second) (ofText first output).session →
        value' = value) := by
  intro longer
  have hrun := ofText_append_eq_andThen first second output
  refine ⟨Token.ofText_append first second, Statement.ofTokens_ofText_append first second, ?_, ?_⟩
  · intro fault hfault
    rw [hrun]
    exact andThen_of_error _ _ fault hfault
  · intro value hvalue
    refine ⟨?_, fun value' hvalue' hsilent => ?_⟩
    · have hkept := Statement.exists_kept_evalAll_append (Statement.ofTokens (Token.ofText first))
        (Statement.closedBehind first second) (Session.start output)
      rwa [← Statement.ofTokens_ofText_append] at hkept
    · rw [hrun, andThen_of_ok _ _ value hvalue] at hvalue'
      cases hlater : (Statement.evalAll (Statement.closedBehind first second)
          (ofText first output).session).answer with
      | error fault =>
          rw [hlater, latest] at hvalue'
          exact absurd hvalue' (by simp only [reduceCtorEq, not_false_eq_true])
      | ok later =>
          rw [hlater, Statement.eq_none_of_silent _ _ later hsilent hlater, latest,
            Option.none_or] at hvalue'
          exact (Except.ok.inj hvalue').symm

/-- The print statement that is left open is closed in the appended text. It prints
    behind what was printed already, and it leaves the answer as it is. -/
theorem ofText_of_closed_print :
    (ofText "print 1 ; add 1 2 ;\nprint" .unlimited).answer = .ok (some (.int 3)) ∧
    (ofText ("print 1 ; add 1 2 ;\nprint" ++ "\n" ++ "7 ;") .unlimited).answer =
      .ok (some (.int 3)) ∧
    ∃ bytes,
      (ofText ("print 1 ; add 1 2 ;\nprint" ++ "\n" ++ "7 ;") .unlimited).session.output.kept =
        (ofText "print 1 ; add 1 2 ;\nprint" .unlimited).session.output.kept ++ bytes := by
  have hvalue : (ofText "print 1 ; add 1 2 ;\nprint" .unlimited).answer = .ok (some (.int 3)) := by
    decide +kernel
  have hclosed : Statement.closedBehind "print 1 ; add 1 2 ;\nprint" "7 ;" =
      [⟨[⟨.keyword .print, 2⟩, ⟨.literal (.int 7), 3⟩, ⟨.separator, 3⟩]⟩] := by
    decide +kernel
  have hprint : (Statement.eval ⟨[⟨.keyword .print, 2⟩, ⟨.literal (.int 7), 3⟩, ⟨.separator, 3⟩]⟩
      (ofText "print 1 ; add 1 2 ;\nprint" .unlimited).session).answer = .ok none := by
    decide +kernel
  have hsilent : Statement.Silent (Statement.closedBehind "print 1 ; add 1 2 ;\nprint" "7 ;")
      (ofText "print 1 ; add 1 2 ;\nprint" .unlimited).session := by
    rw [hclosed]
    intro before statement after hsplit v hv
    cases before with
    | cons first rest => simp only [List.cons_append, List.cons.injEq, List.nil_eq,
        List.append_eq_nil_iff, reduceCtorEq, and_false] at hsplit
    | nil =>
        rw [List.nil_append, List.cons.injEq] at hsplit
        rw [← hsplit.1, Statement.evalAll_nil, idle, hprint, Except.ok.injEq] at hv
        exact absurd hv (by simp only [reduceCtorEq, not_false_eq_true])
  have hdone : (ofText ("print 1 ; add 1 2 ;\nprint" ++ "\n" ++ "7 ;") .unlimited).answer.isOk =
      true := by
    decide +kernel
  rcases (ofText_append_newline "print 1 ; add 1 2 ;\nprint" "7 ;" .unlimited).2.2.2 _ hvalue with
    ⟨hkept, hanswer⟩
  refine ⟨hvalue, ?_, hkept⟩
  cases hlonger : (ofText ("print 1 ; add 1 2 ;\nprint" ++ "\n" ++ "7 ;") .unlimited).answer with
  | ok value' => rw [hanswer value' hlonger hsilent]
  | error fault =>
      rw [hlonger] at hdone
      exact absurd hdone Bool.false_ne_true

end Outcome

end PrefixScript
