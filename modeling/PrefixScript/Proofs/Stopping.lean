import Mathlib.Data.List.Induction
import PrefixScript.Proofs.Run
import PrefixScript.Token.Stream

/-!
# Stopping

What a run leaves behind when it stops at a fault.

A trace shows a run statement by statement, each with its own outcome. A run that
meets a fault meets it at one statement of its trace, the last one, and all
statements before it have succeeded. So a run that fails is a run that succeeds,
with one statement behind it that fails, and with statements behind that one that
might as well not be there.

The statement that fails changes as little as can be. It binds nothing, not even
the target of a binding, since a binding needs its value first. If the fault is
that of an operand, it writes nothing either. If the output refuses a text, the
statement is a print statement, and what it writes is a beginning of the text that
stops short of its end.

## Main definitions

* `Outcome.value?`: The value that an outcome answers with.
* `Statement.sessionAt`: The session in which the statement at a position is
  evaluated.
* `Statement.StopsAt`: A run stops at a position.
* `Statement.Leaves`: What a statement that fails leaves of a session.

## Theorems

* `exists_lost_of_refuses`: A sink that refuses a text keeps a beginning of it.
* `trace_append_of_completed`, `trace_append_of_fault`: The trace of a run in two
  pieces.
* `trace_of_completed`, `getLast?_trace`: The trace of a completed run.
* `exists_statement_of_trace`, `eq_eval_sessionAt_of_trace`: Which statement an
  outcome in a trace is that of, and in which session.
* `stopsAt_iff`, `stopsAt_unique`: Where a run stops.
* `answer_eq_error_iff_existsUnique`, `answer_eq_ok_iff_trace`: The answer of a run,
  read off its trace.
* `leaves_of_fault`, `leaves_of_stopsAt`: A statement that fails changes as little as
  can be.
* `evalAll_take_append_of_stopsAt`: What stands behind it has no effect.
* `evalAll_stops_cleanly`: A run that fails is the beginning of one that succeeds.
-/

namespace PrefixScript

/-- A sink that refuses a text keeps a beginning of it and loses the rest. -/
theorem Sink.exists_lost_of_refuses (sink : Sink) (text : String)
    (h : sink.accepts text = false) :
    ∃ written lost, text.toUTF8 = written ++ lost ∧ lost ≠ .empty ∧
      (sink.write text).kept = sink.kept ++ written := by
  cases hroom : sink.room with
  | none =>
      rw [accepts, hroom] at h
      exact absurd h (by simp only [Bool.true_eq_false, not_false_eq_true])
  | some room =>
      -- Refused is what is longer than the room, so some bytes behind the room are lost.
      have hshort : room < text.toUTF8.size := by
        simp only [accepts, hroom, decide_eq_false_iff_not, Nat.not_le] at h
        exact h
      refine ⟨text.toUTF8.extract 0 room, text.toUTF8.extract room text.toUTF8.size, ?_, ?_,
        sink.kept_write_of_limited text room hroom⟩
      · rw [ByteArray.extract_append_extract, Nat.min_eq_left (Nat.zero_le room)]
        exact (extract_of_size_le text.toUTF8 _ (Nat.le_max_right room _)).symm
      · rw [ne_eq, ByteArray.extract_eq_empty_iff, Nat.min_self]
        omega

/-- The value that an outcome answers with, if there is one. -/
def Outcome.value? (outcome : Outcome) : Option Value :=
  match outcome.answer with
  | .ok value => value
  | .error _ => none

theorem Outcome.value?_of_ok (outcome : Outcome) (value : Option Value)
    (h : outcome.answer = .ok value) : outcome.value? = value := by
  rw [value?, h]

namespace Statement

/-- The session in which the statement at a position is evaluated: the one that the
    statement in front of it has left, or the first one. -/
def sessionAt (statements : List Statement) (session : Session) : Nat → Session
  | 0 => session
  | k + 1 =>
    match (trace statements session)[k]? with
    | some outcome => outcome.session
    | none => session

/-- One after the other, the statements in front of a position succeed, and the one
    at the position fails. -/
def StopsAt (statements : List Statement) (session : Session) (fault : Fault) (k : Nat) : Prop :=
  (∀ i < k, ∃ outcome, (trace statements session)[i]? = some outcome ∧ outcome.Completed) ∧
  ∃ outcome, (trace statements session)[k]? = some outcome ∧ outcome.answer = .error fault

/-- What a statement that fails leaves of the session it was evaluated in. -/
structure Leaves (statement : Statement) (reached : Session) (cause : Cause) (left : Session) :
    Prop where
  environment : left.environment = reached.environment
  output :
    match cause with
    | .unknownVariable _ | .literalTooLarge _ => left.output = reached.output
    | .outputFailed _ =>
      ∃ operand newline v, statement.form? = some (.write operand newline) ∧
        reached.environment.valueOf operand = .ok v ∧
        ∃ written lost, (v.printed newline).toUTF8 = written ++ lost ∧ lost ≠ .empty ∧
          left.output.kept = reached.output.kept ++ written

/-! ### Traces -/

theorem trace_cons_of_error (statement : Statement) (rest : List Statement) (session : Session)
    (fault : Fault) (h : (statement.eval session).answer = .error fault) :
    trace (statement :: rest) session = [statement.eval session] := by
  simp only [trace, h]

theorem trace_cons_of_ok (statement : Statement) (rest : List Statement) (session : Session)
    (value : Option Value) (h : (statement.eval session).answer = .ok value) :
    trace (statement :: rest) session =
      statement.eval session :: trace rest (statement.eval session).session := by
  simp only [trace, h]

/-- The trace of a run goes on behind a completed piece of it. -/
theorem trace_append_of_completed (before after : List Statement) (session : Session)
    (h : (evalAll before session).Completed) :
    trace (before ++ after) session =
      trace before session ++ trace after (evalAll before session).session := by
  induction before generalizing session with
  | nil => rfl
  | cons statement rest ih =>
      -- No statement in front has stopped, so the trace goes on into those behind.
      rw [evalAll_cons, Outcome.completed_andThen_iff] at h
      rcases h with ⟨⟨value, hvalue⟩, hrest⟩
      rw [List.cons_append, trace_cons_of_ok statement _ session value hvalue,
        trace_cons_of_ok statement _ session value hvalue, ih _ hrest, List.cons_append,
        evalAll_cons, Outcome.andThen_of_ok _ _ value hvalue]

/-- It does not go on behind a fault. -/
theorem trace_append_of_fault (before after : List Statement) (statement : Statement)
    (session : Session) (fault : Fault) (hdone : (evalAll before session).Completed)
    (hfault : (statement.eval (evalAll before session).session).answer = .error fault) :
    trace (before ++ statement :: after) session =
      trace before session ++ [statement.eval (evalAll before session).session] := by
  rw [trace_append_of_completed before _ session hdone,
    trace_cons_of_error statement after _ fault hfault]

theorem trace_concat_of_completed (before : List Statement) (statement : Statement)
    (session : Session) (h : (evalAll before session).Completed) :
    trace (before ++ [statement]) session =
      trace before session ++ [statement.eval (evalAll before session).session] := by
  rw [trace_append_of_completed before [statement] session h]
  cases hanswer : (statement.eval (evalAll before session).session).answer with
  | error fault => rw [trace_cons_of_error statement [] _ fault hanswer]
  | ok value => rw [trace_cons_of_ok statement [] _ value hanswer, trace]

/-- In a completed run every statement has its outcome, and all of them are
    completed. -/
theorem trace_of_completed (statements : List Statement) (session : Session)
    (h : (evalAll statements session).Completed) :
    (trace statements session).length = statements.length ∧
      ∀ outcome ∈ trace statements session, outcome.Completed := by
  induction statements using List.reverseRecOn with
  | nil => exact ⟨rfl, fun _ hmem => absurd hmem List.not_mem_nil⟩
  | append_singleton before statement ih =>
      rcases (completed_evalAll_concat_iff before statement session).mp h with ⟨hbefore, hlast⟩
      rcases ih hbefore with ⟨hlength, hall⟩
      rw [trace_concat_of_completed before statement session hbefore]
      refine ⟨by rw [List.length_append, List.length_append, hlength]; rfl, fun outcome hmem => ?_⟩
      -- An outcome of the trace is that of the last statement, or one before it.
      rcases List.mem_append.mp hmem with hmem | hmem
      · exact hall outcome hmem
      · rw [List.mem_singleton.mp hmem]
        exact hlast

/-- The answer of a completed run is the last value in its trace. -/
theorem getLast?_trace (statements : List Statement) (session : Session) (value : Option Value)
    (h : (evalAll statements session).answer = .ok value) :
    value = ((trace statements session).filterMap Outcome.value?).getLast? := by
  induction statements using List.reverseRecOn generalizing value with
  | nil => exact (Except.ok.inj h).symm
  | append_singleton before statement ih =>
      rcases (completed_evalAll_concat_iff before statement session).mp ⟨value, h⟩ with
        ⟨⟨earlier, hearlier⟩, ⟨later, hlater⟩⟩
      rw [evalAll_concat, Outcome.andThen_of_ok _ _ earlier hearlier, hlater, Outcome.latest,
        Except.ok.injEq, ih earlier hearlier] at h
      rw [trace_concat_of_completed before statement session ⟨earlier, hearlier⟩,
        List.filterMap_append, List.getLast?_append, ← h]
      have hvalue := Outcome.value?_of_ok _ later hlater
      -- The last outcome decides, if it has a value.
      cases later with
      | none =>
          rw [List.filterMap_cons_none hvalue]
          rfl
      | some v =>
          rw [List.filterMap_cons_some hvalue]
          rfl

/-! ### Where a run stops -/

/-- The session at a position is the one that a completed run up to it has reached. -/
theorem sessionAt_of_completed (before after : List Statement) (session : Session)
    (h : (evalAll before session).Completed) :
    sessionAt (before ++ after) session before.length = (evalAll before session).session := by
  induction before using List.reverseRecOn generalizing after with
  | nil => rfl
  | append_singleton earlier last _ =>
      have hearlier := completed_of_completed_append earlier [last] session h
      -- A completed run has one outcome a statement, so the last of them is at the end.
      have hlength := (trace_of_completed earlier session hearlier).1
      rw [List.length_append, List.length_singleton, sessionAt, trace_append_of_completed _ after _ h,
        trace_concat_of_completed earlier last session hearlier, List.append_assoc,
        List.getElem?_append_right (Nat.le_of_eq hlength), hlength, Nat.sub_self,
        session_evalAll_concat earlier last session hearlier]
      rfl

/-- Every outcome in a trace is that of a statement, evaluated where the run of the
    statements in front of it has ended. -/
theorem exists_statement_of_trace (statements : List Statement) (session : Session) (k : Nat)
    (outcome : Outcome) (h : (trace statements session)[k]? = some outcome) :
    ∃ before statement after, statements = before ++ statement :: after ∧ before.length = k ∧
      (evalAll before session).Completed ∧
      outcome = statement.eval (evalAll before session).session := by
  induction statements generalizing session k with
  | nil => exact absurd h (by simp only [trace, List.getElem?_nil, reduceCtorEq, not_false_eq_true])
  | cons statement rest ih =>
      cases k with
      | zero =>
          have hfirst : (trace (statement :: rest) session)[0]? = some (statement.eval session) := by
            simp only [trace]
            split <;> rfl
          rw [hfirst, Option.some.injEq] at h
          exact ⟨[], statement, rest, rfl, rfl, ⟨none, rfl⟩, h.symm⟩
      | succ k =>
          cases hanswer : (statement.eval session).answer with
          | error fault =>
              -- There is nothing behind a fault.
              rw [trace_cons_of_error statement rest session fault hanswer] at h
              exact absurd h (by simp only [List.getElem?_cons_succ, List.getElem?_nil, reduceCtorEq,
                not_false_eq_true])
          | ok value =>
              rw [trace_cons_of_ok statement rest session value hanswer, List.getElem?_cons_succ] at h
              rcases ih (statement.eval session).session k h with
                ⟨before, other, after, rfl, rfl, hdone, houtcome⟩
              refine ⟨statement :: before, other, after, rfl, rfl, ?_, ?_⟩
              · rw [evalAll_cons, Outcome.completed_andThen_iff]
                exact ⟨⟨value, hanswer⟩, hdone⟩
              · rw [evalAll_cons, Outcome.andThen_of_ok _ _ value hanswer]
                exact houtcome

/-- It is that of the statement at its position, in the session at this position. -/
theorem eq_eval_sessionAt_of_trace (statements : List Statement) (session : Session) (k : Nat)
    (outcome : Outcome) (h : (trace statements session)[k]? = some outcome) :
    ∃ statement, statements[k]? = some statement ∧
      outcome = statement.eval (sessionAt statements session k) := by
  rcases exists_statement_of_trace statements session k outcome h with
    ⟨before, statement, after, rfl, rfl, hdone, rfl⟩
  refine ⟨statement, ?_, ?_⟩
  · rw [List.getElem?_append_right (Nat.le_refl _), Nat.sub_self]
    rfl
  · rw [sessionAt_of_completed before (statement :: after) session hdone]

theorem stopsAt_iff (statements : List Statement) (session : Session) (fault : Fault) (k : Nat) :
    StopsAt statements session fault k ↔
      ∃ before statement after, statements = before ++ statement :: after ∧ before.length = k ∧
        (evalAll before session).Completed ∧
        (statement.eval (evalAll before session).session).answer = .error fault := by
  constructor
  · rintro ⟨_, outcome, hk, hfault⟩
    rcases exists_statement_of_trace statements session k outcome hk with
      ⟨before, statement, after, hsplit, hlength, hdone, rfl⟩
    exact ⟨before, statement, after, hsplit, hlength, hdone, hfault⟩
  · rintro ⟨before, statement, after, rfl, rfl, hdone, hfault⟩
    -- The outcomes of the completed part come first, all without a fault.
    rcases trace_of_completed before session hdone with ⟨hlength, hall⟩
    rw [StopsAt, trace_append_of_fault before after statement session fault hdone hfault]
    constructor
    · intro i hi
      rw [← hlength] at hi
      rw [List.getElem?_append_left hi, List.getElem?_eq_getElem hi]
      exact ⟨_, rfl, hall _ (List.getElem_mem hi)⟩
    · rw [List.getElem?_append_right (Nat.le_of_eq hlength), hlength, Nat.sub_self]
      exact ⟨_, rfl, hfault⟩

theorem stopsAt_unique (statements : List Statement) (session : Session) (fault fault' : Fault)
    (k k' : Nat) (h : StopsAt statements session fault k)
    (h' : StopsAt statements session fault' k') : k = k' := by
  -- In front of either position all statements succeed.
  have hnot : ∀ (first second : Fault) (i j : Nat), StopsAt statements session first i →
      StopsAt statements session second j → ¬ i < j := by
    intro first second i j hi hj hlt
    rcases hi.2 with ⟨outcome, houtcome, hfault⟩
    rcases hj.1 i hlt with ⟨other, hother, hdone⟩
    rw [houtcome, Option.some.injEq] at hother
    rw [← hother] at hdone
    exact (Outcome.not_completed_iff outcome).mpr ⟨first, hfault⟩ hdone
  have hle := hnot fault fault' k k' h h'
  have hge := hnot fault' fault k' k h' h
  omega

/-- A run fails where it stops, and there is one place only. -/
theorem answer_eq_error_iff_existsUnique (statements : List Statement) (session : Session)
    (fault : Fault) :
    (evalAll statements session).answer = .error fault ↔
      ∃! k, StopsAt statements session fault k := by
  rw [answer_evalAll_eq_error_iff]
  constructor
  · rintro ⟨before, statement, after, hsplit, hdone, hfault⟩
    -- The statement with the fault is at the position of the number of those before it.
    have hstop : StopsAt statements session fault before.length :=
      (stopsAt_iff statements session fault _).mpr
        ⟨before, statement, after, hsplit, rfl, hdone, hfault⟩
    exact ⟨before.length, hstop, fun k hk =>
      stopsAt_unique statements session fault fault k before.length hk hstop⟩
  · rintro ⟨k, hstop, _⟩
    rcases (stopsAt_iff statements session fault k).mp hstop with
      ⟨before, statement, after, hsplit, _, hdone, hfault⟩
    exact ⟨before, statement, after, hsplit, hdone, hfault⟩

/-- A run succeeds if all its statements do, and it answers with the last of their
    values. -/
theorem answer_eq_ok_iff_trace (statements : List Statement) (session : Session)
    (value : Option Value) :
    (evalAll statements session).answer = .ok value ↔
      (∀ k < statements.length, ∃ outcome,
        (trace statements session)[k]? = some outcome ∧ outcome.Completed) ∧
      value = ((trace statements session).filterMap Outcome.value?).getLast? := by
  constructor
  · intro h
    rcases trace_of_completed statements session ⟨value, h⟩ with ⟨hlength, hall⟩
    refine ⟨fun k hk => ?_, getLast?_trace statements session value h⟩
    rw [← hlength] at hk
    rw [List.getElem?_eq_getElem hk]
    exact ⟨_, rfl, hall _ (List.getElem_mem hk)⟩
  · rintro ⟨hall, rfl⟩
    cases hanswer : (evalAll statements session).answer with
    | ok value => rw [getLast?_trace statements session value hanswer]
    | error fault =>
        -- The statement at which the run stops would succeed as well.
        rcases ((answer_eq_error_iff_existsUnique statements session fault).mp hanswer).exists with
          ⟨k, hstop⟩
        rcases (stopsAt_iff statements session fault k).mp hstop with
          ⟨before, statement, after, hsplit, rfl, _⟩
        have hlt : before.length < statements.length := by
          rw [hsplit, List.length_append, List.length_cons]
          omega
        rcases hall before.length hlt with ⟨outcome, houtcome, hdone⟩
        rcases hstop.2 with ⟨other, hother, hfault⟩
        rw [houtcome, Option.some.injEq] at hother
        rw [← hother] at hfault
        exact absurd hdone ((Outcome.not_completed_iff outcome).mpr ⟨fault, hfault⟩)

/-! ### What is left -/

/-- A statement that fails binds nothing, and it writes nothing or too little. -/
theorem leaves_of_fault (statement : Statement) (reached : Session) (fault : Fault)
    (h : (statement.eval reached).answer = .error fault) :
    statement.Leaves reached fault.cause (statement.eval reached).session := by
  refine ⟨environment_eval_of_fault statement reached fault h, ?_⟩
  cases heffect : statement.effect reached.environment with
  | error first =>
      rw [eval_of_effect_error statement reached first heffect] at h ⊢
      rw [← Except.error.inj h]
      -- The fault is that of an operand, so nothing has been written.
      rcases List.exists_of_findSome?_eq_some
        ((statement.effect_eq_error_iff _ first).mp heffect) with ⟨operand, _, hoperand⟩
      rcases reached.environment.fault?_cases operand first hoperand with ⟨digits, _, rfl⟩ |
        ⟨x, _, _, rfl⟩
      · rfl
      · rfl
  | ok effect =>
      cases haccepts : reached.output.accepts effect.text with
      | true =>
          rw [eval_of_accepts statement reached effect heffect haccepts] at h
          exact absurd h (by simp only [reduceCtorEq, not_false_eq_true])
      | false =>
          have heval := eval_of_refuses statement reached effect heffect haccepts
          rw [heval] at h ⊢
          rw [← Except.error.inj h]
          rcases reached.output.exists_lost_of_refuses effect.text haccepts with
            ⟨written, lost, htext, hlost, hkept⟩
          -- Only what print statements write can be refused.
          rcases effect_cases statement _ effect heffect with ⟨_, rfl⟩ | ⟨_, _, _, _, _, rfl⟩ |
            ⟨operand, newline, v, hform, hv, rfl⟩ | ⟨_, _, _, _, _, _, _, _, rfl⟩
          · exact absurd reached.output.accepts_empty (by rw [haccepts]; exact Bool.false_ne_true)
          · exact absurd reached.output.accepts_empty (by rw [haccepts]; exact Bool.false_ne_true)
          · exact ⟨operand, newline, v, hform, hv, written, lost, htext, hlost, hkept⟩
          · exact absurd reached.output.accepts_empty (by rw [haccepts]; exact Bool.false_ne_true)

/-- What the statement that fails leaves is what the run leaves. -/
theorem leaves_of_stopsAt (statements : List Statement) (session : Session) (fault : Fault)
    (k : Nat) (h : StopsAt statements session fault k) :
    ∃ statement, statements[k]? = some statement ∧
      statement.Leaves (sessionAt statements session k) fault.cause
        (evalAll statements session).session := by
  rcases (stopsAt_iff statements session fault k).mp h with
    ⟨before, statement, after, rfl, rfl, hdone, hfault⟩
  refine ⟨statement, ?_, ?_⟩
  · rw [List.getElem?_append_right (Nat.le_refl _), Nat.sub_self]
    rfl
  · rw [sessionAt_of_completed before (statement :: after) session hdone,
      evalAll_of_fault before after statement session fault hdone hfault]
    exact leaves_of_fault statement _ fault hfault

/-- Whatever stands behind the statement that fails has no effect. -/
theorem evalAll_take_append_of_stopsAt (statements others : List Statement) (session : Session)
    (fault : Fault) (k : Nat) (h : StopsAt statements session fault k) :
    evalAll (statements.take (k + 1) ++ others) session = evalAll statements session := by
  rcases (stopsAt_iff statements session fault k).mp h with
    ⟨before, statement, after, rfl, rfl, hdone, hfault⟩
  -- The fault is in what is kept, and nothing behind it is evaluated.
  have htake : (before ++ statement :: after).take (before.length + 1) = before ++ [statement] := by
    rw [List.take_length_add_append, List.take_one, List.head?_cons]
    rfl
  rw [htake, List.append_assoc, List.singleton_append,
    evalAll_of_fault before others statement session fault hdone hfault,
    evalAll_of_fault before after statement session fault hdone hfault]

/-- A run that fails is the beginning of one that succeeds. It fails at exactly one
    of its statements, which are evaluated one after the other, each in the session
    that the one before has left. All before that one succeed, and those behind it
    have no effect. The variables are left as they were in front of it. So is the
    output, unless it was the output that failed; then it holds a beginning of
    what was to be printed as well, but not all of it. A run in which all statements
    succeed answers with the last of their values. -/
theorem evalAll_stops_cleanly (statements : List Statement) (session : Session) :
    let final := evalAll statements session
    (∀ (k : Nat) outcome, (trace statements session)[k]? = some outcome →
      ∃ statement, statements[k]? = some statement ∧
        outcome = statement.eval (sessionAt statements session k)) ∧
    (∀ fault, final.answer = .error fault ↔ ∃! k, StopsAt statements session fault k) ∧
    (∀ fault k, StopsAt statements session fault k →
      (∃ statement, statements[k]? = some statement ∧
        statement.Leaves (sessionAt statements session k) fault.cause final.session) ∧
      ∀ others, evalAll (statements.take (k + 1) ++ others) session = final) ∧
    (∀ value, final.answer = .ok value ↔
      (∀ k < statements.length, ∃ outcome,
        (trace statements session)[k]? = some outcome ∧ outcome.Completed) ∧
      value = ((trace statements session).filterMap Outcome.value?).getLast?) := by
  intro final
  exact ⟨eq_eval_sessionAt_of_trace statements session,
    answer_eq_error_iff_existsUnique statements session,
    fun fault k hstop => ⟨leaves_of_stopsAt statements session fault k hstop,
      fun others => evalAll_take_append_of_stopsAt statements others session fault k hstop⟩,
    answer_eq_ok_iff_trace statements session⟩

/-- The output may have been written to before, and may end within the text that is
    printed last. The binding behind it does not take place. -/
theorem kept_of_cut_println :
    let statements := ofTokens (Token.ofText "let x 5 ;\nprint x ;\nprintln 12 ;\nlet x 7 ;")
    let session : Session := ⟨.empty, ⟨"ab".toUTF8, some 2, "full"⟩⟩
    StopsAt statements session ⟨.outputFailed "full", 3⟩ 2 ∧
    evalAll (statements.take 3 ++ []) session = evalAll statements session ∧
    (evalAll statements session).session.output.kept = "ab51".toUTF8 ∧
    (evalAll statements session).session.environment.get? "x" = some (.int 5) := by
  intro statements session
  have hstop : StopsAt statements session ⟨.outputFailed "full", 3⟩ 2 := by
    refine (stopsAt_iff statements session _ 2).mpr
      ⟨statements.take 2, ⟨[⟨.keyword .println, 3⟩, ⟨.literal (.int 12), 3⟩, ⟨.separator, 3⟩]⟩,
        statements.drop 3, ?_, ?_, ⟨none, ?_⟩, ?_⟩
    · decide +kernel
    · decide +kernel
    · decide +kernel
    · decide +kernel
  exact ⟨hstop, ((evalAll_stops_cleanly statements session).2.2.1 _ 2 hstop).2 [],
    by decide +kernel, by decide +kernel⟩

end Statement

end PrefixScript
