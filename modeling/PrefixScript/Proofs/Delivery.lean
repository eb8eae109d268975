import PrefixScript.Proofs.Scope
import PrefixScript.Proofs.Truncation
import PrefixScript.Stdout

/-!
# Delivery

What becomes of a run when its output is standard output.

On a device that works there is nothing to tell but the run itself: it goes well
or badly as the run does, the report of a fault is the report, and the device
receives what the run writes. If the answer is to be printed and there is one,
it comes last, with a line feed behind it.

On a broken device everything depends on whether something goes to the device at
all. If so, the failure of the device is reported, even in place of a fault, and
if not, nobody can tell the device from one that works. It makes no difference
when the failure is noticed. A buffer that refuses some of the text stops the
script early, at a statement that prints, but then something has been handed
over, and the flush fails as well and takes the place of that fault. Otherwise
the buffer had room for everything and the script ran as it does without limit.

## Main definitions

* `Outcome.Announces`: The answer is to be printed, and there is one.
* `Outcome.HandsOver`: Something goes to the device.

## Theorems

* `Fault.head?_message`, `Fault.message_ne_of_head?`: How a report of a fault starts, and
  what cannot be one.
* `cause_ne_outputFailed`: Without limit the output never fails.
* `ofTokens_limited_of_fits`, `exists_fault_of_overflow`: A limit stops a run that
  writes more, and no other.
* `tried_buffer_iff`, `answer_buffer_of_not_tried`: In front of any device a run
  hands something over if it prints, and otherwise comes to the same answer.
* `result_working_eq_ok_iff`, `result_working_eq_error_iff`: A working device
  leaves the answer as it is.
* `output_working_of_announces`, `output_working_of_not_announces`: It receives
  what is written, and the answer if it is to be printed.
* `result_broken_of_handsOver`, `result_broken_of_not_handsOver`: A broken device
  fails if it has something to lose.
* `ofTokens_eq_run`: Running on standard output is running without limit.
-/

namespace PrefixScript

/-- Every report of a fault starts alike. -/
theorem Fault.head?_message (fault : Fault) : fault.message.toList.head? = some 'E' := by
  -- The first letter of a report does not depend on the fault.
  change ("Error on line " ++ _ ++ ": " ++ _).toList.head? = some 'E'
  rw [String.toList_append, String.toList_append, String.toList_append]
  rfl

/-- What starts otherwise is no report of a fault. -/
theorem Fault.message_ne_of_head? (fault : Fault) (text : String)
    (h : text.toList.head? ≠ some 'E') : fault.message ≠ text := by
  rintro rfl
  exact h fault.head?_message

namespace Outcome

/-- The answer of the run is to be printed behind it, and it is `v`. -/
def Announces (outcome : Outcome) (autoPrint : Bool) (v : Value) : Prop :=
  autoPrint = true ∧ outcome.answer = .ok (some v)

/-- There is something for the device: what the run has written, or its answer. -/
def HandsOver (outcome : Outcome) (autoPrint : Bool) : Prop :=
  outcome.session.output.kept.size ≠ 0 ∨ ∃ v, outcome.Announces autoPrint v

theorem refused_eq_true_iff (outcome : Outcome) :
    outcome.refused = true ↔
      ∃ details line, outcome.answer = .error ⟨.outputFailed details, line⟩ := by
  constructor
  · intro h
    unfold refused at h
    split at h
    · -- The only branch in which something was refused.
      rename_i details line hanswer
      exact ⟨details, line, hanswer⟩
    · exact absurd h Bool.false_ne_true
  · rintro ⟨details, line, hanswer⟩
    simp only [refused, hanswer]

theorem tried_eq_true_iff (outcome : Outcome) :
    outcome.tried = true ↔ outcome.session.output.kept.size ≠ 0 ∨ outcome.refused = true := by
  simp only [tried, Bool.or_eq_true, decide_eq_true_eq]

/-- Without limit the output never fails. -/
theorem cause_ne_outputFailed (tokens : List (Located Token)) (details : String) (line : Nat) :
    (ofTokens tokens .unlimited).answer ≠ .error ⟨.outputFailed details, line⟩ := by
  intro h
  -- The fault would be the offence of an operand, and no operand offends like that.
  rcases (Statement.answer_evalAll_start_eq_error_iff _ .unlimited _ rfl).mp h with
    ⟨⟨item, line'⟩, _, hoffence⟩
  cases item with
  | literal v => simp only [Located.offence?, reduceCtorEq] at hoffence
  | name x => simp only [Located.offence?, Option.some.injEq, Fault.mk.injEq, reduceCtorEq,
      false_and] at hoffence
  | oversized digits => simp only [Located.offence?, Option.some.injEq, Fault.mk.injEq,
      reduceCtorEq, false_and] at hoffence

/-- Without limit a run hands over what it prints, and nothing else. -/
theorem tried_unlimited_iff (tokens : List (Located Token)) :
    (ofTokens tokens .unlimited).tried = true ↔
      (ofTokens tokens .unlimited).session.output.kept.size ≠ 0 := by
  rw [tried_eq_true_iff, refused_eq_true_iff]
  refine or_iff_left ?_
  rintro ⟨details, line, hfault⟩
  exact cause_ne_outputFailed tokens details line hfault

section Limited

variable (tokens : List (Located Token)) (limit : Nat) (failure : String)

/-- A run that has room for all it writes is the run without limit. -/
theorem ofTokens_limited_of_fits
    (h : (ofTokens tokens .unlimited).session.output.kept.size ≤ limit) :
    ofTokens tokens (.limited limit failure) = (ofTokens tokens .unlimited).limited limit failure :=
  Statement.evalAll_limited_of_fits (Session.start .unlimited) limit failure _ rfl h

/-- A run that writes more than there is room for is stopped by the output. -/
theorem exists_fault_of_overflow
    (h : limit < (ofTokens tokens .unlimited).session.output.kept.size) :
    ∃ line, (ofTokens tokens (.limited limit failure)).answer =
      .error ⟨.outputFailed failure, line⟩ := by
  rcases Statement.evalAll_limited_of_overflow (Session.start .unlimited) limit failure _ rfl
    (Nat.zero_le limit) h with ⟨_, operand, _, hstop⟩
  exact ⟨operand.line, congrArg Outcome.answer hstop⟩

theorem tried_limited_iff :
    (ofTokens tokens (.limited limit failure)).tried = true ↔
      (ofTokens tokens .unlimited).session.output.kept.size ≠ 0 := by
  by_cases hfits : (ofTokens tokens .unlimited).session.output.kept.size ≤ limit
  · rw [ofTokens_limited_of_fits tokens limit failure hfits]
    exact tried_unlimited_iff tokens
  · -- Otherwise the limit is passed, which is a failure of the output.
    rw [Nat.not_le] at hfits
    rcases exists_fault_of_overflow tokens limit failure hfits with ⟨line, hanswer⟩
    have hrefused := (refused_eq_true_iff _).mpr ⟨failure, line, hanswer⟩
    exact ⟨fun _ => Nat.ne_of_gt (Nat.zero_lt_of_lt hfits),
      fun _ => (tried_eq_true_iff _).mpr (Or.inr hrefused)⟩

end Limited

section Buffered

variable (tokens : List (Located Token)) (device : Device)

/-- In front of any device a run hands something over exactly if it prints something
    where there is no limit. -/
theorem tried_buffer_iff :
    (ofTokens tokens device.buffer).tried = true ↔
      (ofTokens tokens .unlimited).session.output.kept.size ≠ 0 := by
  rcases device with _ | ⟨failure, _ | room⟩
  · exact tried_unlimited_iff tokens
  · exact tried_unlimited_iff tokens
  · exact tried_limited_iff tokens room failure

/-- The device makes a difference to the answer only if the buffer is too small. -/
theorem answer_buffer_of_fits
    (h : ∀ failure room, device = .broken failure (some room) →
      (ofTokens tokens .unlimited).session.output.kept.size ≤ room) :
    (ofTokens tokens device.buffer).answer = (ofTokens tokens .unlimited).answer := by
  -- Only a broken device whose failure is noticed early gives the buffer a limit.
  rcases device with _ | ⟨failure, _ | room⟩
  · rfl
  · rfl
  · change (ofTokens tokens (.limited room failure)).answer = _
    rw [ofTokens_limited_of_fits tokens room failure (h failure room rfl)]
    rfl

/-- A run that has handed nothing over has the answer it has without limit. -/
theorem answer_buffer_of_not_tried (h : (ofTokens tokens device.buffer).tried = false) :
    (ofTokens tokens device.buffer).answer = (ofTokens tokens .unlimited).answer := by
  rw [← Bool.not_eq_true, tried_buffer_iff, not_not] at h
  exact answer_buffer_of_fits tokens device fun _ room _ => h ▸ Nat.zero_le room

end Buffered

end Outcome

namespace Delivery

section Devices

variable (tokens : List (Located Token)) (autoPrint : Bool)

/-- Without anything to announce there is no closing line. -/
theorem closingLine_of_not_announces (value : Option Value)
    (hvalue : (Outcome.ofTokens tokens .unlimited).answer = .ok value)
    (h : ∀ v, ¬ (Outcome.ofTokens tokens .unlimited).Announces autoPrint v) :
    closingLine autoPrint value = "" := by
  cases autoPrint with
  | false => rfl
  | true =>
      cases value with
      | none => rfl
      | some v => exact absurd ⟨rfl, hvalue⟩ (h v)

/-! ### A working device -/

theorem result_working_of_ok (value : Option Value)
    (h : (Outcome.ofTokens tokens .unlimited).answer = .ok value) :
    (ofTokens .working tokens autoPrint).result = .ok () := by
  simp only [ofTokens, Device.buffer, Device.flush, h]

theorem result_working_of_error (fault : Fault)
    (h : (Outcome.ofTokens tokens .unlimited).answer = .error fault) :
    (ofTokens .working tokens autoPrint).result = .error fault.message := by
  simp only [ofTokens, Device.buffer, Device.flush, h]

theorem result_working_eq_ok_iff :
    (ofTokens .working tokens autoPrint).result = .ok () ↔
      (Outcome.ofTokens tokens .unlimited).Completed := by
  unfold Outcome.Completed
  cases hanswer : (Outcome.ofTokens tokens .unlimited).answer with
  | ok value => simp only [result_working_of_ok tokens autoPrint value hanswer, Except.ok.injEq,
      exists_eq']
  | error fault => simp only [result_working_of_error tokens autoPrint fault hanswer, reduceCtorEq,
      exists_false]

theorem result_working_eq_error_iff (message : String) :
    (ofTokens .working tokens autoPrint).result = .error message ↔
      ∃ fault, (Outcome.ofTokens tokens .unlimited).answer = .error fault ∧
        fault.message = message := by
  cases hanswer : (Outcome.ofTokens tokens .unlimited).answer with
  | ok value => simp only [result_working_of_ok tokens autoPrint value hanswer, reduceCtorEq,
      false_and, exists_false]
  | error fault => simp only [result_working_of_error tokens autoPrint fault hanswer,
      Except.error.injEq, exists_eq_left']

theorem output_working_of_announces (v : Value)
    (h : (Outcome.ofTokens tokens .unlimited).Announces autoPrint v) :
    (ofTokens .working tokens autoPrint).output =
      (Outcome.ofTokens tokens .unlimited).session.output.kept ++ (v.text ++ "\n").toUTF8 := by
  simp only [ofTokens, Device.buffer, Device.flush, h.1, h.2]
  rfl

theorem output_working_of_not_announces
    (h : ∀ v, ¬ (Outcome.ofTokens tokens .unlimited).Announces autoPrint v) :
    (ofTokens .working tokens autoPrint).output =
      (Outcome.ofTokens tokens .unlimited).session.output.kept := by
  cases hanswer : (Outcome.ofTokens tokens .unlimited).answer with
  | error fault =>
      simp only [ofTokens, Device.buffer, Device.flush, hanswer]
      rfl
  | ok value =>
      -- The closing line is empty, so nothing is added to what the run writes.
      have hclosing := closingLine_of_not_announces tokens autoPrint value hanswer h
      simp only [ofTokens, Device.buffer, Device.flush, hanswer, hclosing]
      exact ByteArray.append_empty

/-! ### A broken device -/

section Broken

variable (failure : String) (room : Option Nat)

/-- The flush comes first, so its failure hides whatever the run has come to. -/
theorem result_broken_of_tried
    (h : (Outcome.ofTokens tokens (Device.broken failure room).buffer).tried = true) :
    (ofTokens (.broken failure room) tokens autoPrint).result = .error failure := by
  simp only [ofTokens, Device.flush, h, if_true]

/-- Behind a flush without anything to pass on, a fault is told as it is. -/
theorem result_broken_of_error (fault : Fault)
    (h : (Outcome.ofTokens tokens (Device.broken failure room).buffer).tried = false)
    (hanswer : (Outcome.ofTokens tokens .unlimited).answer = .error fault) :
    (ofTokens (.broken failure room) tokens autoPrint).result = .error fault.message := by
  have hsame := Outcome.answer_buffer_of_not_tried tokens _ h
  rw [hanswer] at hsame
  simp only [ofTokens, Device.flush, h, hsame, Bool.false_eq_true, if_false]

/-- Behind such a flush, a completed run still has its closing line to lose. -/
theorem result_broken_of_ok (value : Option Value)
    (h : (Outcome.ofTokens tokens (Device.broken failure room).buffer).tried = false)
    (hanswer : (Outcome.ofTokens tokens .unlimited).answer = .ok value) :
    (ofTokens (.broken failure room) tokens autoPrint).result =
      if closingLine autoPrint value = "" then .ok () else .error failure := by
  have hsame := Outcome.answer_buffer_of_not_tried tokens _ h
  rw [hanswer] at hsame
  simp only [ofTokens, Device.flush, h, hsame, Bool.false_eq_true, if_false, ne_eq,
    decide_not, Bool.not_eq_true', decide_eq_false_iff_not, ite_not]

/-- A device that has something to lose fails, and its failure is what is reported. -/
theorem result_broken_of_handsOver
    (h : (Outcome.ofTokens tokens .unlimited).HandsOver autoPrint) :
    (ofTokens (.broken failure room) tokens autoPrint).result = .error failure := by
  cases htried : (Outcome.ofTokens tokens (Device.broken failure room).buffer).tried with
  | true => exact result_broken_of_tried tokens autoPrint failure room htried
  | false =>
      -- The run has printed nothing, so it is the answer that is lost.
      have hkept := mt (Outcome.tried_buffer_iff tokens _).mpr (Bool.eq_false_iff.mp htried)
      rcases h with hkept' | ⟨v, hauto, hanswer⟩
      · exact absurd hkept' hkept
      · rw [result_broken_of_ok tokens autoPrint failure room (some v) htried hanswer, hauto]
        refine if_neg fun hempty => ?_
        have hpos := v.utf8ByteSize_printed_pos true
        rw [closingLine] at hempty
        rw [hempty, String.utf8ByteSize_empty] at hpos
        exact Nat.lt_irrefl 0 hpos

/-- A device without anything to lose cannot be told from one that works. -/
theorem result_broken_of_not_handsOver
    (h : ¬ (Outcome.ofTokens tokens .unlimited).HandsOver autoPrint) :
    (ofTokens (.broken failure room) tokens autoPrint).result =
      (ofTokens .working tokens autoPrint).result := by
  -- Nothing was printed, and there is no closing line.
  rw [Outcome.HandsOver, not_or, not_exists] at h
  rcases h with ⟨hkept, hannounces⟩
  have htried := Bool.eq_false_iff.mpr
    (mt (Outcome.tried_buffer_iff tokens (.broken failure room)).mp hkept)
  cases hanswer : (Outcome.ofTokens tokens .unlimited).answer with
  | error fault =>
      rw [result_broken_of_error tokens autoPrint failure room fault htried hanswer,
        result_working_of_error tokens autoPrint fault hanswer]
  | ok value =>
      rw [result_broken_of_ok tokens autoPrint failure room value htried hanswer,
        result_working_of_ok tokens autoPrint value hanswer]
      exact if_pos (closingLine_of_not_announces tokens autoPrint value hanswer hannounces)

theorem output_broken : (ofTokens (.broken failure room) tokens autoPrint).output = .empty := by
  simp only [ofTokens, Device.received]
  split <;> rfl

/-- The failure of the device is reported exactly if the device has something to lose,
    unless it reads like the report of a fault. -/
theorem result_broken_eq_failure_iff (hfailure : ∀ fault : Fault, fault.message ≠ failure) :
    (ofTokens (.broken failure room) tokens autoPrint).result = .error failure ↔
      (Outcome.ofTokens tokens .unlimited).HandsOver autoPrint := by
  refine ⟨fun hresult => ?_, result_broken_of_handsOver tokens autoPrint failure room⟩
  -- Otherwise the report would be that of a fault, and the failure does not read like one.
  by_contra hnot
  rw [result_broken_of_not_handsOver tokens autoPrint failure room hnot,
    result_working_eq_error_iff] at hresult
  rcases hresult with ⟨fault, _, hmessage⟩
  exact hfailure fault hmessage

end Broken

end Devices

/-- Running on standard output is running without limit. On a working device it goes
    well if the run does, the report is that of the fault, and the device receives
    what the run writes, and behind it the answer and a line feed if it is to be
    printed and there is one. A text is run by running its tokens. On a broken
    device the run is stopped by its output if the buffer has not got the room for what
    it writes, and otherwise it comes to the same answer. But wherever the failure
    is noticed, that of the device is what is reported, exactly if there is something
    for the device and whatever the run has come to; otherwise the report is that for
    a working device. -/
theorem ofTokens_eq_run (tokens : List (Located Token)) (autoPrint : Bool) :
    let run := Outcome.ofTokens tokens .unlimited
    let working := ofTokens .working tokens autoPrint
    ((working.result = .ok () ↔ run.Completed) ∧
      (∀ message, working.result = .error message ↔
        ∃ fault, run.answer = .error fault ∧ fault.message = message) ∧
      (∀ v, run.Announces autoPrint v →
        working.output = run.session.output.kept ++ (v.text ++ "\n").toUTF8) ∧
      ((∀ v, ¬ run.Announces autoPrint v) → working.output = run.session.output.kept)) ∧
    (∀ device source, ofText device source autoPrint =
      ofTokens device (Token.ofText source) autoPrint) ∧
    ∀ failure room,
      let broken := ofTokens (.broken failure room) tokens autoPrint
      let early := Outcome.ofTokens tokens (Device.broken failure room).buffer
      let overflows := ∃ limit, room = some limit ∧ limit < run.session.output.kept.size
      ((overflows → ∃ line, early.answer = .error ⟨.outputFailed failure, line⟩) ∧
        (¬ overflows → early.answer = run.answer) ∧
        (early.tried = true ↔ run.session.output.kept.size ≠ 0) ∧
        (early.tried = false → early.answer = run.answer)) ∧
      (run.HandsOver autoPrint → broken.result = .error failure) ∧
      (¬ run.HandsOver autoPrint → broken.result = working.result) ∧
      ((∀ fault : Fault, fault.message ≠ failure) →
        (broken.result = .error failure ↔ run.HandsOver autoPrint)) ∧
      broken.output = .empty := by
  intro run working
  refine ⟨⟨result_working_eq_ok_iff tokens autoPrint, result_working_eq_error_iff tokens autoPrint,
    output_working_of_announces tokens autoPrint,
    output_working_of_not_announces tokens autoPrint⟩, fun device source => rfl, ?_⟩
  intro failure room broken early overflows
  refine ⟨⟨?_, fun hfits => ?_, Outcome.tried_buffer_iff tokens _,
    Outcome.answer_buffer_of_not_tried tokens _⟩,
    result_broken_of_handsOver tokens autoPrint failure room,
    result_broken_of_not_handsOver tokens autoPrint failure room,
    result_broken_eq_failure_iff tokens autoPrint failure room,
    output_broken tokens autoPrint failure room⟩
  · rintro ⟨limit, rfl, hlimit⟩
    exact Outcome.exists_fault_of_overflow tokens limit failure hlimit
  · refine Outcome.answer_buffer_of_fits tokens _ fun failure' limit hdevice => ?_
    -- The room is that of the device, and it is not too small.
    rw [Device.broken.injEq] at hdevice
    exact Nat.le_of_not_lt fun hlimit => hfits ⟨limit, hdevice.2, hlimit⟩

/-- A script that prints and then fails. On a device without space neither its own fault
    is reported nor that of the output, which comes earlier if the buffer has no room. -/
theorem result_full_of_printed_fault :
    let tokens := Token.ofText "print 1 ;\nprint x ;"
    (ofTokens .working tokens true).result = .error "Error on line 2: Unknown variable 'x'." ∧
    (Outcome.ofTokens tokens .unlimited).HandsOver true ∧
    (∃ line, (Outcome.ofTokens tokens (Device.broken Device.noSpace (some 0)).buffer).answer =
      .error ⟨.outputFailed Device.noSpace, line⟩) ∧
    (ofTokens (.broken Device.noSpace (some 0)) tokens true).result =
      .error "No space left on device (os error 28)" ∧
    (ofTokens .full tokens true).result = .error "No space left on device (os error 28)" := by
  intro tokens
  rcases ofTokens_eq_run tokens true with ⟨⟨_, hreport, _⟩, _, hbroken⟩
  -- Noticed at the first byte, and not noticed before the flush.
  rcases hbroken Device.noSpace (some 0) with ⟨⟨hstopped, _⟩, hfailure, _⟩
  rcases hbroken Device.noSpace none with ⟨_, _, _, hexactly, _⟩
  have hfault : (Outcome.ofTokens tokens .unlimited).answer = .error ⟨.unknownVariable "x", 2⟩ := by
    decide +kernel
  have hkept : (Outcome.ofTokens tokens .unlimited).session.output.kept.size ≠ 0 := by
    decide +kernel
  have hover : (Outcome.ofTokens tokens .unlimited).HandsOver true := Or.inl hkept
  -- A report starts with another letter.
  have hexcuse : ∀ fault : Fault, fault.message ≠ Device.noSpace :=
    fun fault => fault.message_ne_of_head? _ (by decide)
  refine ⟨(hreport _).mpr ⟨_, hfault, ?_⟩, hover, hstopped ⟨0, rfl, Nat.pos_of_ne_zero hkept⟩,
    hfailure hover, (hexactly hexcuse).mpr hover⟩
  decide +kernel

end Delivery

end PrefixScript
