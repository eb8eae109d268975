import PrefixScript.Proofs.Run

/-!
# Truncation

What a limit on the output does to a run, and what it does not do.

The same statements are run twice from the same variables, once with an output
that takes everything and once with one that keeps a number of bytes. As long as
the bytes fit, the two runs go side by side and differ in nothing but the room
that is left. The first print statement that writes more than that room is where
they part: the limited run keeps the part that fits, stops there with the excuse
of its output, and leaves the variables as they were before that statement. The
run without limit may go on, and may still fail, but the limited run has already
kept all that it will ever keep, a beginning of what the other one writes.

Nothing depends on where the limit falls, in the middle of a number, in front of
the end of a line, or between two statements. A statement that prints always
writes something, so an output that is full refuses every one of them.

## Main definitions

* `Session.limited`, `Outcome.limited`: The same, but for a limit on the output.
* `WritesByte`: The statement that writes a byte of the output, in the run without
  limit.

## Theorems

* `evalAll_limited_of_fits`: A limited run that has room enough is the run without
  limit.
* `evalAll_limited_of_overflow`: A limited run without room enough stops at the
  statement that writes one byte too many.
* `output_evalAll_limited_of_full`: What has filled the output leaves no room.
* `eval_of_full`: A full output refuses every print statement.
* `evalAll_limited`: A limit truncates the output and changes nothing else.
-/

namespace PrefixScript

theorem Value.utf8ByteSize_printed_pos (v : Value) (newline : Bool) :
    0 < (v.printed newline).utf8ByteSize := by
  -- A truth value is written as a word, and a number has a digit at least.
  have htext : v.text ≠ "" := by
    intro h
    have hchars : v.chars = [] := by rw [← v.toList_text, h, String.toList_empty]
    cases v with
    | bool b => cases b <;> exact absurd hchars (List.cons_ne_nil _ _)
    | int n =>
        simp only [chars] at hchars
        cases hn : n.toInt with
        | ofNat k =>
            rw [hn, Decimal.ofInt] at hchars
            exact absurd hchars Nat.toDigits_ne_nil
        | negSucc k =>
            rw [hn, Decimal.ofInt] at hchars
            exact absurd hchars (List.cons_ne_nil _ _)
  have hpos : 0 < v.text.utf8ByteSize := by
    rw [Nat.pos_iff_ne_zero, ne_eq, String.utf8ByteSize_eq_zero_iff]
    exact htext
  cases newline with
  | false => exact hpos
  | true =>
      simp only [Value.printed, if_true, String.utf8ByteSize_append]
      omega

/-- The same session, with an output that keeps no more than `limit` bytes in
    all. -/
def Session.limited (limit : Nat) (failure : String) (session : Session) : Session :=
  ⟨session.environment,
    ⟨session.output.kept, some (limit - session.output.kept.size), failure⟩⟩

/-- The same outcome, in the limited session. -/
def Outcome.limited (limit : Nat) (failure : String) (outcome : Outcome) : Outcome :=
  ⟨outcome.answer, outcome.session.limited limit failure⟩

namespace Statement

/-- In a run without limit, the statement behind `before` writes the byte with
    the given number, counted from zero, and it does so for the operand. -/
def WritesByte (statements : List Statement) (session : Session) (number : Nat)
    (before : List Statement) (operand : Located Operand) : Prop :=
  ∃ statement after newline, statements = before ++ statement :: after ∧
    statement.form? = some (.write operand newline) ∧
    (evalAll before session).session.output.kept.size ≤ number ∧
    number < (evalAll (before ++ [statement]) session).session.output.kept.size

theorem size_kept_concat_le (before : List Statement) (statement : Statement) (session : Session) :
    (evalAll before session).session.output.kept.size ≤
      (evalAll (before ++ [statement]) session).session.output.kept.size := by
  rcases exists_kept_evalAll_append before [statement] session with ⟨bytes, hbytes⟩
  rw [hbytes, ByteArray.size_append]
  omega

section Limit

variable (session : Session) (limit : Nat) (failure : String)

/-- One statement side by side, if what it writes still fits. -/
theorem eval_limited_of_fits (statement : Statement) (hroom : session.output.room = none)
    (h : (statement.eval session).session.output.kept.size ≤ limit) :
    statement.eval (session.limited limit failure) =
      (statement.eval session).limited limit failure := by
  cases heffect : statement.effect session.environment with
  | error fault =>
      -- The limited session has the same variables, so the operands fail as well.
      rw [eval_of_effect_error statement session fault heffect,
        eval_of_effect_error statement (session.limited limit failure) fault heffect]
      rfl
  | ok effect =>
      rw [eval_of_unlimited statement session effect hroom heffect,
        Sink.kept_write_of_unlimited _ _ hroom, String.toUTF8_eq_toByteArray,
        ByteArray.size_append, String.size_toByteArray] at h
      have haccepts : (session.limited limit failure).output.accepts effect.text = true := by
        simp only [Session.limited, Sink.accepts, decide_eq_true_eq]
        omega
      rw [eval_of_unlimited statement session effect hroom heffect,
        eval_of_accepts statement (session.limited limit failure) effect heffect haccepts]
      -- The whole text is within the room, so cutting it there does nothing.
      have hwhole : effect.text.toByteArray.extract 0 (limit - session.output.kept.size) =
          effect.text.toByteArray := by
        refine Sink.extract_of_size_le _ _ ?_
        rw [String.size_toByteArray]
        omega
      simp only [Session.limited, Outcome.limited, Sink.write, hroom, String.toUTF8_eq_toByteArray,
        hwhole, ByteArray.size_append, String.size_toByteArray, Nat.sub_sub]

/-- One statement side by side, if it writes too much. It is a print statement,
    and it fails without changing a variable. -/
theorem eval_limited_of_overflow (statement : Statement) (hroom : session.output.room = none)
    (hbefore : session.output.kept.size ≤ limit)
    (h : limit < (statement.eval session).session.output.kept.size) :
    ∃ operand newline, statement.form? = some (.write operand newline) ∧
      statement.eval (session.limited limit failure) =
        .stopped ⟨.outputFailed failure, operand.line⟩
          ⟨session.environment,
            ⟨(statement.eval session).session.output.kept.extract 0 limit, some 0, failure⟩⟩ := by
  cases heffect : statement.effect session.environment with
  | error fault =>
      -- Nothing is written, so the limit is not passed.
      rw [eval_of_effect_error statement session fault heffect] at h
      exact absurd hbefore (Nat.not_le.mpr h)
  | ok effect =>
      rw [eval_of_unlimited statement session effect hroom heffect,
        Sink.kept_write_of_unlimited _ _ hroom, String.toUTF8_eq_toByteArray] at h ⊢
      rw [ByteArray.size_append, String.size_toByteArray] at h
      have htext : effect.text ≠ "" := by
        intro hempty
        rw [hempty, String.utf8ByteSize_empty] at h
        omega
      rcases form?_of_text_ne_empty statement _ effect heffect htext with
        ⟨operand, newline, hform, hline⟩
      refine ⟨operand, newline, hform, ?_⟩
      have hrefuses : (session.limited limit failure).output.accepts effect.text = false := by
        simp only [Session.limited, Sink.accepts, decide_eq_false_iff_not]
        omega
      rw [eval_of_refuses statement (session.limited limit failure) effect heffect hrefuses, hline]
      -- What is kept already is a beginning of what would be kept in the end.
      have hnone : limit - session.output.kept.size - effect.text.utf8ByteSize = 0 := by omega
      simp only [Session.limited, Session.write, Sink.write, String.toUTF8_eq_toByteArray,
        ByteArray.extract_append, Sink.extract_of_size_le _ _ hbefore, Nat.zero_sub, hnone]

/-- A run side by side, while all that is written still fits. -/
theorem evalAll_limited_of_fits (statements : List Statement)
    (hroom : session.output.room = none)
    (h : (evalAll statements session).session.output.kept.size ≤ limit) :
    evalAll statements (session.limited limit failure) =
      (evalAll statements session).limited limit failure := by
  induction statements using List.reverseRecOn with
  | nil => rfl
  | append_singleton before statement ih =>
      have hbefore := ih (Nat.le_trans (size_kept_concat_le before statement session) h)
      rw [evalAll_concat, hbefore]
      by_cases hdone : (evalAll before session).Completed
      · -- Both runs go on, from sessions that differ in the room only.
        rcases hdone with ⟨earlier, hearlier⟩
        rw [session_evalAll_concat before statement session ⟨earlier, hearlier⟩] at h
        have hstep := eval_limited_of_fits (evalAll before session).session limit failure statement
          (room_evalAll_of_unlimited before session hroom) h
        rw [evalAll_concat, Outcome.andThen_of_ok _ _ earlier hearlier,
          Outcome.andThen_of_ok ((evalAll before session).limited limit failure) _ earlier hearlier]
        simp only [Outcome.limited] at hstep ⊢
        rw [hstep]
      · -- Both have stopped, with the same fault.
        rcases (Outcome.not_completed_iff _).mp hdone with ⟨fault, hfault⟩
        rw [evalAll_concat_of_not_completed before statement session hdone]
        exact Outcome.andThen_of_error _ _ fault hfault

/-- A run side by side, if more is written than fits. The limited run stops at
    the statement that writes the first byte too many. -/
theorem evalAll_limited_of_overflow (statements : List Statement)
    (hroom : session.output.room = none) (hstart : session.output.kept.size ≤ limit)
    (h : limit < (evalAll statements session).session.output.kept.size) :
    ∃ before operand, WritesByte statements session limit before operand ∧
      evalAll statements (session.limited limit failure) =
        .stopped ⟨.outputFailed failure, operand.line⟩
          ⟨(evalAll before session).session.environment,
            ⟨(evalAll statements session).session.output.kept.extract 0 limit, some 0,
              failure⟩⟩ := by
  induction statements using List.reverseRecOn with
  | nil => exact absurd hstart (Nat.not_le.mpr h)
  | append_singleton earlier last ih =>
      by_cases hover : limit < (evalAll earlier session).session.output.kept.size
      · -- The limit was passed before, so nothing more gets through.
        rcases ih hover with ⟨before, operand, ⟨statement, after, newline, rfl, hform, hle, hlt⟩, hstop⟩
        refine ⟨before, operand, ⟨statement, after ++ [last], newline, ?_, hform, hle, hlt⟩, ?_⟩
        · rw [List.append_assoc, List.cons_append]
        · rcases exists_kept_evalAll_append (before ++ statement :: after) [last] session with
            ⟨bytes, hbytes⟩
          have hcut : limit - (evalAll (before ++ statement :: after) session).session.output.kept.size
              = 0 := by omega
          rw [evalAll_append_of_error _ [last] _ _ (by rw [hstop]; rfl), hstop, hbytes,
            ByteArray.extract_append, hcut, Nat.zero_sub, ByteArray.extract_same,
            ByteArray.append_empty]
      · -- The limit is passed at the last statement.
        have hfits := Nat.not_lt.mp hover
        by_cases hdone : (evalAll earlier session).Completed
        · have hlast := h
          rw [session_evalAll_concat earlier last session hdone] at hlast
          rcases eval_limited_of_overflow (evalAll earlier session).session limit failure last
            (room_evalAll_of_unlimited earlier session hroom) hfits hlast with
            ⟨operand, newline, hform, hstop⟩
          refine ⟨earlier, operand, ⟨last, [], newline, rfl, hform, hfits, h⟩, ?_⟩
          rcases hdone with ⟨value, hvalue⟩
          rw [evalAll_concat, evalAll_limited_of_fits session limit failure earlier hroom hfits,
            Outcome.andThen_of_ok ((evalAll earlier session).limited limit failure) _ value hvalue,
            session_evalAll_concat earlier last session ⟨value, hvalue⟩]
          simp only [Outcome.limited, hstop]
          rfl
        · -- The run without limit has stopped in front of it, so it writes nothing.
          rw [evalAll_concat_of_not_completed earlier last session hdone] at h
          exact absurd h hover

/-- What fills the output, or more than fills it, leaves no room. -/
theorem output_evalAll_limited_of_full (statements : List Statement)
    (hroom : session.output.room = none) (hstart : session.output.kept.size ≤ limit)
    (h : limit ≤ (evalAll statements session).session.output.kept.size) :
    (evalAll statements (session.limited limit failure)).session.output.room = some 0 ∧
      (evalAll statements (session.limited limit failure)).session.output.failure = failure := by
  rcases Nat.lt_or_eq_of_le h with hlt | heq
  · rcases evalAll_limited_of_overflow session limit failure statements hroom hstart hlt with
      ⟨_, _, _, hstop⟩
    rw [hstop]
    exact ⟨rfl, rfl⟩
  · -- Filled exactly, the output has refused nothing, but there is no room left.
    rw [evalAll_limited_of_fits session limit failure statements hroom (Nat.le_of_eq heq.symm)]
    refine ⟨?_, rfl⟩
    simp only [Outcome.limited, Session.limited, heq, Nat.sub_self]

end Limit

/-- A full output refuses every print statement that comes to print something,
    and neither it nor any other statement changes what it keeps. -/
theorem eval_of_full (statement : Statement) (session : Session)
    (hfull : session.output.room = some 0) :
    (statement.eval session).session.output = session.output ∧
    ∀ operand newline v, statement.form? = some (.write operand newline) →
      session.environment.valueOf operand = .ok v →
      statement.eval session =
        .stopped ⟨.outputFailed session.output.failure, operand.line⟩ session := by
  have hwrite : ∀ text, session.output.write text = session.output := by
    intro text
    rcases session with ⟨env, ⟨kept, room, failure⟩⟩
    simp only at hfull
    simp only [Sink.write, hfull, ByteArray.extract_same, ByteArray.append_empty, Nat.zero_sub]
  constructor
  · rcases exists_output_eval statement session with ⟨text, htext, _⟩
    rw [htext, hwrite]
  · intro operand newline v hform hv
    have heffect : statement.effect session.environment =
        .ok { text := v.printed newline, line := operand.line } := by
      simp only [effect, hform, Command.effect, hv, Except.map]
    -- What is printed is never empty, so it does not fit.
    have hrefuses : session.output.accepts (v.printed newline) = false := by
      have hpos := v.utf8ByteSize_printed_pos newline
      simp only [Sink.accepts, hfull, decide_eq_false_iff_not]
      omega
    rw [eval_of_refuses statement session _ heffect hrefuses, Session.write, hwrite]

/-- A limit truncates the output of a run and changes nothing else. If all that
    the run writes fits, the limited run is the same. If not, it fails with the
    excuse of its output, on the line of the operand that the first byte too
    many is written for; it keeps what fits, and its variables are those in
    front of that statement. Once there is no room, nothing is printed any
    more. -/
theorem evalAll_limited (statements : List Statement) (env : Environment) (limit : Nat)
    (failure : String) :
    let free := evalAll statements ⟨env, .unlimited⟩
    let confined := evalAll statements ⟨env, .limited limit failure⟩
    let written := free.session.output.kept
    (written.size ≤ limit →
      confined.answer = free.answer ∧ confined.session.output.kept = written ∧
      confined.session.environment = free.session.environment) ∧
    (limit < written.size →
      ∃ before operand, WritesByte statements ⟨env, .unlimited⟩ limit before operand ∧
        confined.answer = .error ⟨.outputFailed failure, operand.line⟩ ∧
        confined.session.output.kept = written.extract 0 limit ∧
        confined.session.environment =
          (evalAll before ⟨env, .unlimited⟩).session.environment) ∧
    (limit ≤ written.size → ∀ (later : Statement) (env' : Environment),
      (later.eval ⟨env', confined.session.output⟩).session.output = confined.session.output ∧
      ∀ operand newline v, later.form? = some (.write operand newline) →
        env'.valueOf operand = .ok v →
        later.eval ⟨env', confined.session.output⟩ =
          .stopped ⟨.outputFailed failure, operand.line⟩ ⟨env', confined.session.output⟩) := by
  intro free confined written
  have hfits : written.size ≤ limit → confined = free.limited limit failure := by
    intro h
    exact evalAll_limited_of_fits ⟨env, .unlimited⟩ limit failure statements rfl h
  have hover : limit < written.size → ∃ before operand,
      WritesByte statements ⟨env, .unlimited⟩ limit before operand ∧
      confined = .stopped ⟨.outputFailed failure, operand.line⟩
        ⟨(evalAll before ⟨env, .unlimited⟩).session.environment,
          ⟨written.extract 0 limit, some 0, failure⟩⟩ := by
    intro h
    exact evalAll_limited_of_overflow ⟨env, .unlimited⟩ limit failure statements rfl
      (Nat.zero_le limit) h
  refine ⟨fun h => ?_, fun h => ?_, fun h later env' => ?_⟩
  · rw [hfits h]
    exact ⟨rfl, rfl, rfl⟩
  · rcases hover h with ⟨before, operand, hbyte, hstop⟩
    refine ⟨before, operand, hbyte, ?_⟩
    rw [hstop]
    exact ⟨rfl, rfl, rfl⟩
  · have hfull : confined.session.output.room = some 0 ∧
        confined.session.output.failure = failure :=
      output_evalAll_limited_of_full ⟨env, .unlimited⟩ limit failure statements rfl
        (Nat.zero_le limit) h
    rcases eval_of_full later ⟨env', confined.session.output⟩ hfull.1 with ⟨hsame, hstop⟩
    refine ⟨hsame, fun operand newline v hform hv => ?_⟩
    rw [hstop operand newline v hform hv, hfull.2]

/-- The limit may fall within a number, of which the first digits are kept. -/
theorem kept_of_cut_number :
    2 < (evalAll [⟨[⟨.keyword .println, 1⟩, ⟨.literal (.int 375), 1⟩, ⟨.separator, 1⟩]⟩]
      ⟨.empty, .unlimited⟩).session.output.kept.size ∧
    (evalAll [⟨[⟨.keyword .println, 1⟩, ⟨.literal (.int 375), 1⟩, ⟨.separator, 1⟩]⟩]
      ⟨.empty, .limited 2 "full"⟩).session.output.kept = "37".toUTF8 := by
  have hover : 2 <
      (evalAll [⟨[⟨.keyword .println, 1⟩, ⟨.literal (.int 375), 1⟩, ⟨.separator, 1⟩]⟩]
        ⟨.empty, .unlimited⟩).session.output.kept.size := by
    decide +kernel
  rcases (evalAll_limited _ .empty 2 "full").2.1 hover with ⟨_, _, _, _, hkept, _⟩
  refine ⟨hover, ?_⟩
  rw [hkept]
  decide +kernel

end Statement

end PrefixScript
