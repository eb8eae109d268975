import PrefixScript.Proofs.Delivery
import PrefixScript.Proofs.TokenRow

/-!
# The Command Line

What a call of the program leaves behind, told by the run of its script.

On a standard output that works, a call adds little to the run of the text it is
given: the list of the tokens in front of everything else on standard error, one
line for each of them, and the answer of the script behind everything else on
standard output, each only if it is asked for. So the two options stay out of
each other's way, and neither has a say in whether the call goes well.

Without a path there is nothing to run, and with a path that cannot be read
there is only that to report.

## Main definitions

* `Report.IsClosing`: No more than one line.

## Theorems

* `newline_not_mem_chars`: A value is written on one line.
* `result_working_eq_of_autoPrint`: Printing the answer makes no difference to how
  a run goes.
* `stdout_ofText`: Standard output is the device of the run.
* `ofText_working_of_ok`, `ofText_working_of_error`: What is told besides.
* `ofText_showTokens`, `ofText_pipeMode`: What an option does not change.
* `exists_stdout_ofText`: What printing the answer changes.
* `ofOptions_related`: Calls are compared by their runs.
* `ofOptions_eq_run`: A call is the run of its text.
-/

namespace PrefixScript

/-- A value is written on one line. -/
theorem Value.newline_not_mem_chars (v : Value) : '\n' ∉ v.chars := by
  have hdigits : ∀ n, '\n' ∉ Decimal.digits n := fun n hmem =>
    absurd (Decimal.isDigit_of_mem_digits n '\n' hmem) (by decide)
  cases v with
  | bool b => cases b <;> decide
  | int n =>
      simp only [chars]
      cases n.toInt with
      | ofNat k => exact hdigits k
      | negSucc k =>
          -- A hyphen, and digits behind it.
          rw [Decimal.ofInt, List.mem_cons, not_or]
          exact ⟨by decide, hdigits (k + 1)⟩

/-- Printing the answer makes no difference to how a run goes. -/
theorem Delivery.result_working_eq_of_autoPrint (tokens : List (Located Token))
    (autoPrint autoPrint' : Bool) :
    (ofTokens .working tokens autoPrint).result = (ofTokens .working tokens autoPrint').result := by
  cases hanswer : (Outcome.ofTokens tokens .unlimited).answer with
  | ok value =>
      rw [result_working_of_ok tokens autoPrint value hanswer,
        result_working_of_ok tokens autoPrint' value hanswer]
  | error fault =>
      rw [result_working_of_error tokens autoPrint fault hanswer,
        result_working_of_error tokens autoPrint' fault hanswer]

namespace CommandLine

namespace Report

section Text

variable (options : Options) (source : String)

theorem stdout_ofText (device : Device) :
    (ofText device options source).stdout =
      (Delivery.ofTokens device (Token.ofText source) options.pipeMode).output := by
  cases hresult :
      (Delivery.ofTokens device (Token.ofText source) options.pipeMode).result <;>
    simp only [ofText, hresult]

theorem ofText_working_of_ok (value : Option Value)
    (h : (Outcome.ofTokens (Token.ofText source) .unlimited).answer = .ok value) :
    (ofText .working options source).exitCode = 0 ∧
      (ofText .working options source).stderr = tokenList options (Token.ofText source) := by
  have hresult := Delivery.result_working_of_ok (Token.ofText source) options.pipeMode value h
  simp only [ofText, hresult, and_self]

theorem ofText_working_of_error (fault : Fault)
    (h : (Outcome.ofTokens (Token.ofText source) .unlimited).answer = .error fault) :
    (ofText .working options source).exitCode = 1 ∧
      (ofText .working options source).stderr =
        tokenList options (Token.ofText source) ++ fault.message ++ "\n" := by
  have hresult := Delivery.result_working_of_error (Token.ofText source) options.pipeMode fault h
  simp only [ofText, hresult, and_self]

/-- The list of tokens is written to standard error only. -/
theorem ofText_showTokens (device : Device) (showTokens : Bool) :
    (ofText device { options with showTokens } source).stdout =
        (ofText device options source).stdout ∧
      (ofText device { options with showTokens } source).exitCode =
        (ofText device options source).exitCode := by
  refine ⟨by rw [stdout_ofText, stdout_ofText], ?_⟩
  cases hresult :
      (Delivery.ofTokens device (Token.ofText source) options.pipeMode).result <;>
    simp only [ofText, hresult]

/-- The answer is written to standard output only. -/
theorem ofText_pipeMode (pipeMode : Bool) :
    (ofText .working { options with pipeMode } source).stderr =
        (ofText .working options source).stderr ∧
      (ofText .working { options with pipeMode } source).exitCode =
        (ofText .working options source).exitCode := by
  -- The run goes the same way, and it alone decides about both.
  have hresult := Delivery.result_working_eq_of_autoPrint (Token.ofText source) pipeMode
    options.pipeMode
  simp only [ofText, hresult]
  cases (Delivery.ofTokens .working (Token.ofText source) options.pipeMode).result <;>
    exact ⟨rfl, rfl⟩

/-- Nothing, or one whole line. -/
def IsClosing (closing : String) : Prop :=
  closing = "" ∨ IsLine closing

/-- Printing the answer adds one line to standard output, or nothing. -/
theorem exists_stdout_ofText :
    ∃ closing, IsClosing closing ∧
      (ofText .working { options with pipeMode := true } source).stdout =
        (ofText .working { options with pipeMode := false } source).stdout ++ closing.toUTF8 := by
  -- If the answer is not to be printed, there is nothing but what the script writes.
  have hplain : (ofText .working { options with pipeMode := false } source).stdout =
      (Outcome.ofTokens (Token.ofText source) .unlimited).session.output.kept := by
    rw [stdout_ofText]
    exact Delivery.output_working_of_not_announces (Token.ofText source) false
      fun v h => Bool.false_ne_true h.1
  rw [hplain, stdout_ofText]
  by_cases hannounces : ∃ v, (Outcome.ofTokens (Token.ofText source) .unlimited).Announces true v
  · rcases hannounces with ⟨v, hv⟩
    refine ⟨v.text ++ "\n", Or.inr ⟨v.text, ?_, rfl⟩,
      Delivery.output_working_of_announces (Token.ofText source) true v hv⟩
    rw [v.toList_text]
    exact v.newline_not_mem_chars
  · refine ⟨"", Or.inl rfl, ?_⟩
    rw [not_exists] at hannounces
    exact (Delivery.output_working_of_not_announces (Token.ofText source) true hannounces).trans
      ByteArray.append_empty.symm

end Text

/-- Calls with the same path are related in some way if runs of the same text are, since
    without a text they are the same. -/
theorem ofOptions_related (related : Report → Report → Prop) (device : Device)
    (read : String → Option String) (options options' : Options)
    (hpath : options'.path = options.path) (hrefl : ∀ report, related report report)
    (htext : ∀ source, related (ofText device options source) (ofText device options' source)) :
    related (ofOptions device read options) (ofOptions device read options') := by
  -- Without a path or a text both calls make the same report.
  simp only [ofOptions, hpath]
  cases options.path with
  | none => exact hrefl _
  | some path =>
      simp only
      cases read path with
      | none => exact hrefl _
      | some source => exact htext source

/-- A call is the run of its text. Without a path it does nothing, and without a text it
    reports that, whatever the options. Otherwise standard output is what the run
    writes, with its answer and a line feed behind it if that is asked for and
    there is one; standard error is the list of tokens if that is asked for, and
    behind it the report of the fault if there is one; and the exit code tells
    whether there is. In the list each token has one line: its number at the right edge of
    a column of four, two spaces, and its description. So listing the tokens changes
    neither standard output nor the exit code, and printing the answer changes neither
    standard error nor the exit code and adds no more than a line to standard output. -/
theorem ofOptions_eq_run (read : String → Option String) (options : Options) :
    let report := ofOptions .working read options
    (options.path = none → report = ⟨0, .empty, ""⟩) ∧
    (∀ path, options.path = some path → read path = none →
      report = ⟨1, .empty, "Could not find file \"" ++ path ++ "\"\n"⟩) ∧
    (∀ path source, options.path = some path → read path = some source →
      let run := Outcome.ofText source .unlimited
      let row := fun token : Located Token =>
        String.ofList ((toString token.line).toList.leftpad 4 ' ') ++ "  " ++ token.item.text ++
          "\n"
      let rows := if options.showTokens then String.join ((Token.ofText source).map row) else ""
      (∀ token ∈ Token.ofText source, IsLine (row token)) ∧
      (∀ v, run.Announces options.pipeMode v →
        report.stdout = run.session.output.kept ++ (v.text ++ "\n").toUTF8) ∧
      ((∀ v, ¬ run.Announces options.pipeMode v) → report.stdout = run.session.output.kept) ∧
      (∀ value, run.answer = .ok value → report.exitCode = 0 ∧ report.stderr = rows) ∧
      (∀ fault, run.answer = .error fault →
        report.exitCode = 1 ∧ report.stderr = rows ++ fault.message ++ "\n")) ∧
    (∀ showTokens,
      let other := ofOptions .working read { options with showTokens }
      other.stdout = report.stdout ∧ other.exitCode = report.exitCode) ∧
    (∀ pipeMode,
      let other := ofOptions .working read { options with pipeMode }
      other.stderr = report.stderr ∧ other.exitCode = report.exitCode) ∧
    ∃ closing, IsClosing closing ∧
      (ofOptions .working read { options with pipeMode := true }).stdout =
        (ofOptions .working read { options with pipeMode := false }).stdout ++ closing.toUTF8 := by
  intro report
  refine ⟨fun hpath => ?_, fun path hpath hread => ?_, fun path source hpath hread => ?_,
    fun showTokens => ?_, fun pipeMode => ?_, ?_⟩
  · simp only [report, ofOptions, hpath]
  · simp only [report, ofOptions, hpath, hread]
    rfl
  · have hreport : report = ofText .working options source := by
      simp only [report, ofOptions, hpath, hread]
    rw [hreport, stdout_ofText, Outcome.ofText]
    intro run row rows
    have hrow : row = tokenRow := funext fun token => (tokenRow_eq token).symm
    have hrows : rows = tokenList options (Token.ofText source) := by rw [tokenList, ← hrow]
    rw [hrow, hrows]
    exact ⟨fun token htoken =>
        isLine_tokenRow token (Token.lexical_of_mem_ofText source token htoken),
      Delivery.output_working_of_announces (Token.ofText source) options.pipeMode,
      Delivery.output_working_of_not_announces (Token.ofText source) options.pipeMode,
      ofText_working_of_ok options source, ofText_working_of_error options source⟩
  -- The options are compared on one text each, which is where they make a difference.
  · exact ofOptions_related
      (fun report other => other.stdout = report.stdout ∧ other.exitCode = report.exitCode)
      .working read options _ rfl (fun _ => ⟨rfl, rfl⟩)
      fun source => ofText_showTokens options source .working showTokens
  · exact ofOptions_related
      (fun report other => other.stderr = report.stderr ∧ other.exitCode = report.exitCode)
      .working read options _ rfl (fun _ => ⟨rfl, rfl⟩)
      fun source => ofText_pipeMode options source pipeMode
  · exact ofOptions_related
      (fun report other => ∃ closing, IsClosing closing ∧
        other.stdout = report.stdout ++ closing.toUTF8)
      .working read { options with pipeMode := false } { options with pipeMode := true } rfl
      (fun _ => ⟨"", Or.inl rfl, ByteArray.append_empty.symm⟩)
      fun source => exists_stdout_ofText options source

/-- Two scripts whose tokens are listed. One has an answer, prints something else and goes
    well; the other prints and then fails, and is reported behind the list. -/
theorem report_of_answered_script :
    let source := "add 2 3 ;\nprint true ;"
    let failing := "print 1 ;\nprint x ;"
    let read := fun path =>
      if path = "script" then some source else if path = "failing" then some failing else none
    let report := ofOptions .working read ⟨true, true, some "script"⟩
    let reportOfFailing := ofOptions .working read ⟨true, true, some "failing"⟩
    report.stdout = "true5\n".toUTF8 ∧ report.exitCode = 0 ∧
    report.stderr =
      String.join ["   1  keyword `add`\n", "   1  int literal `2`\n", "   1  int literal `3`\n",
        "   1  separator `;`\n", "   2  keyword `print`\n", "   2  bool literal `true`\n",
        "   2  separator `;`\n"] ∧
    (ofOptions .working read ⟨true, false, some "script"⟩).stderr = "" ∧
    reportOfFailing.stdout = "1".toUTF8 ∧ reportOfFailing.exitCode = 1 ∧
    reportOfFailing.stderr =
      String.join ["   1  keyword `print`\n", "   1  int literal `1`\n", "   1  separator `;`\n",
        "   2  keyword `print`\n", "   2  identifier `x`\n", "   2  separator `;`\n",
        "Error on line 2: Unknown variable 'x'.\n"] ∧
    ofOptions .working read ⟨true, true, some "scripts"⟩ =
      ⟨1, .empty, "Could not find file \"scripts\"\n"⟩ := by
  intro source failing read report reportOfFailing
  have hanswer : (Outcome.ofText source .unlimited).answer = .ok (some (.int 5)) := by
    decide +kernel
  have hfault : (Outcome.ofText failing .unlimited).answer = .error ⟨.unknownVariable "x", 2⟩ := by
    decide +kernel
  -- A run that fails has no answer to print.
  have hquiet : ∀ v, ¬ (Outcome.ofText failing .unlimited).Announces true v := by
    rintro v ⟨_, hv⟩
    exact absurd (hfault.symm.trans hv) (by simp only [reduceCtorEq, not_false_eq_true])
  rcases (ofOptions_eq_run read ⟨true, true, some "script"⟩).2.2.1 "script" source rfl rfl with
    ⟨_, hannounced, _, hlisted, _⟩
  rcases (ofOptions_eq_run read ⟨true, false, some "script"⟩).2.2.1 "script" source rfl rfl with
    ⟨_, _, _, hunlisted, _⟩
  rcases (ofOptions_eq_run read ⟨true, true, some "failing"⟩).2.2.1 "failing" failing rfl rfl with
    ⟨_, _, hwritten, _, hreported⟩
  rcases hlisted _ hanswer with ⟨hcode, hrows⟩
  rcases hreported _ hfault with ⟨hcode', hrows'⟩
  refine ⟨?_, hcode, ?_, (hunlisted _ hanswer).2, ?_, hcode', ?_,
    (ofOptions_eq_run read ⟨true, true, some "scripts"⟩).2.1 "scripts" rfl rfl⟩
  · exact (hannounced (.int 5) ⟨rfl, hanswer⟩).trans (by decide +kernel)
  · exact hrows.trans (by decide +kernel)
  · exact (hwritten hquiet).trans (by decide +kernel)
  · exact hrows'.trans (by decide +kernel)

end Report

end CommandLine

end PrefixScript
