import PrefixScript.Proofs.CommandLine

/-!
# The List of Tokens

What can be told from the list of the tokens of a script.

A list of rows is read back line by line. This needs more than rows of different
tokens being different: a description must not run over the end of its line,
and the report of a fault, which may stand behind the list, must not be taken
for a row. The tokens of a text have no line feed in them, no row starts with
the letter that every report starts with, and so all of standard error can be
read back.

## Main definitions

* `isRow`: How a row can be told from a report.
* `Report.faultReport`: What stands behind the list.
* `Report.Lists`: A call lists the tokens of a text.

## Theorems

* `lines_rows`: The lines of a list are its rows.
* `takeWhile_lines`: The rows are the lines in front of a report.
* `Report.stderr_ofText`: Standard error is the list with the report behind it.
* `Report.ofOptions_lists`: Standard error tells the tokens, and the tokens tell
  the rest.
-/

namespace PrefixScript

namespace CommandLine

/-- Whether a line can be a row. A report starts with a letter, and a row does not. -/
def isRow (line : List Char) : Bool :=
  match line with
  | c :: _ => c != 'E'
  | [] => false

theorem isRow_rowChars (token : Located Token) : isRow (rowChars token) = true := by
  have hne : Decimal.padded 4 token.line ≠ [] := by
    unfold Decimal.padded List.leftpad
    exact List.append_ne_nil_of_right_ne_nil _ (Decimal.digits_ne_nil token.line)
  rcases List.exists_cons_of_ne_nil hne with ⟨c, more, hpadded⟩
  -- A row starts with its number, so with a space or a digit.
  have hc := Decimal.mem_padded 4 token.line c (by rw [hpadded]; exact List.mem_cons_self)
  unfold rowChars
  rw [hpadded, List.cons_append, isRow, bne_iff_ne]
  rintro rfl
  rcases hc with hspace | hdigit
  · exact absurd hspace (by decide)
  · exact absurd hdigit (by decide)

/-- The lines of a list are its rows, and behind them the lines of what follows. -/
theorem lines_rows (tokens : List (Located Token)) (behind : List Char)
    (h : ∀ token ∈ tokens, token.item.Lexical) :
    Text.lines (tokens.flatMap (fun token => (tokenRow token).toList) ++ behind) =
      tokens.map rowChars ++ Text.lines behind := by
  induction tokens with
  | nil => rfl
  | cons token rest ih =>
      have hfirst := newline_not_mem_rowChars token (h token List.mem_cons_self)
      have hrest := ih fun other hother => h other (List.mem_cons_of_mem token hother)
      -- The line feed behind the first row is its only one, so that is where it is cut.
      rw [List.flatMap_cons, toList_tokenRow, List.append_assoc, List.append_assoc,
        List.singleton_append, Text.lines_append_newline, hrest,
        Text.lines_of_newline_not_mem _ hfirst]
      rfl

/-- The rows are the lines in front of a report. -/
theorem takeWhile_lines (tokens : List (Located Token)) (behind : List Char)
    (h : ∀ token ∈ tokens, token.item.Lexical)
    (hbehind : ∀ line ∈ (Text.lines behind).head?, isRow line = false) :
    (Text.lines (tokens.flatMap (fun token => (tokenRow token).toList) ++ behind)).takeWhile isRow =
      tokens.map rowChars := by
  have hrows : ∀ line ∈ tokens.map rowChars, isRow line = true := by
    intro line hline
    rcases List.mem_map.mp hline with ⟨token, _, rfl⟩
    exact isRow_rowChars token
  rw [lines_rows tokens behind h, List.takeWhile_append_of_pos hrows]
  -- All rows are taken, and the first line behind them is not.
  cases hlines : Text.lines behind with
  | nil => rw [List.takeWhile_nil, List.append_nil]
  | cons line rest =>
      have hline := hbehind line (by rw [hlines]; rfl)
      rw [List.takeWhile_cons_of_neg (by rw [hline]; exact Bool.false_ne_true), List.append_nil]

namespace Report

/-- What stands behind the list of tokens: the report of a fault, if there is one. -/
def faultReport (answer : Except Fault (Option Value)) : String :=
  match answer with
  | .ok _ => ""
  | .error fault => fault.message ++ "\n"

/-- The call lists the tokens of the text, which can be read. -/
def Lists (read : String → Option String) (options : Options) (source : String) : Prop :=
  options.showTokens = true ∧ ∃ path, options.path = some path ∧ read path = some source

theorem stderr_ofText (options : Options) (source : String) :
    (ofText .working options source).stderr =
      tokenList options (Token.ofText source) ++
        faultReport (Outcome.ofTokens (Token.ofText source) .unlimited).answer := by
  cases hanswer : (Outcome.ofTokens (Token.ofText source) .unlimited).answer with
  | ok value =>
      rw [(ofText_working_of_ok options source value hanswer).2, faultReport, String.append_empty]
  | error fault =>
      rw [(ofText_working_of_error options source fault hanswer).2, faultReport, String.append_assoc]

/-- No report begins like a row. -/
theorem isRow_faultReport (answer : Except Fault (Option Value)) :
    ∀ line ∈ (Text.lines (faultReport answer).toList).head?, isRow line = false := by
  cases answer with
  | ok value =>
      intro line hline
      rw [← Option.mem_some.mp hline]
      rfl
  | error fault =>
      rcases List.head?_eq_some_iff.mp fault.head?_message with ⟨rest, hmessage⟩
      intro line hline
      -- The first line of a report starts as the report does.
      rw [faultReport, String.toList_append, hmessage, List.cons_append, Text.lines, List.splitOn,
        List.splitOnP_cons_eq_if_modifyHead, if_neg (by decide), List.head?_modifyHead,
        Option.mem_def, Option.map_eq_some_iff] at hline
      rcases hline with ⟨first, _, rfl⟩
      rfl

/-- The tokens of the text can be read off standard error. -/
theorem takeWhile_lines_stderr (options : Options) (source : String)
    (hshow : options.showTokens = true) :
    (Text.lines (ofText .working options source).stderr.toList).takeWhile isRow =
      (Token.ofText source).map rowChars := by
  rw [stderr_ofText, tokenList, if_pos hshow, String.toList_append, String.toList_join,
    List.flatMap_map]
  exact takeWhile_lines (Token.ofText source) _
    (fun token htoken => Token.lexical_of_mem_ofText source token htoken) (isRow_faultReport _)

/-- Texts with the same tokens have the same report. -/
theorem ofText_congr (device : Device) (options options' : Options) (source source' : String)
    (htokens : Token.ofText source = Token.ofText source')
    (hshow : options.showTokens = options'.showTokens)
    (hpipe : options.pipeMode = options'.pipeMode) :
    ofText device options source = ofText device options' source' := by
  unfold ofText tokenList
  rw [htokens, hshow, hpipe]

theorem ofOptions_of_lists (device : Device) (read : String → Option String) (options : Options)
    (source : String) (h : Lists read options source) :
    ofOptions device read options = ofText device options source := by
  rcases h.2 with ⟨path, hpath, hread⟩
  unfold ofOptions
  simp only [hpath, hread]

/-- Different tokens have different descriptions, and different sequences of tokens have
    different lists, whatever stands behind them. So the standard error of two calls
    that list their tokens is the same exactly if the tokens of their texts are, and
    then the calls have the same standard output and the same exit code as well,
    unless only one of them prints its answer. -/
theorem ofOptions_lists :
    Function.Injective Token.text ∧
    ∀ (read read' : String → Option String) (options options' : Options) (source source' : String),
      Lists read options source → Lists read' options' source' →
      let report := ofOptions .working read options
      let report' := ofOptions .working read' options'
      (report.stderr = report'.stderr ↔ Token.ofText source = Token.ofText source') ∧
      (report.stderr = report'.stderr → options.pipeMode = options'.pipeMode →
        report.stdout = report'.stdout ∧ report.exitCode = report'.exitCode) := by
  refine ⟨Token.text_injective, ?_⟩
  intro read read' options options' source source' h h' report report'
  have hreport : report = ofText .working options source := ofOptions_of_lists .working read _ _ h
  have hreport' : report' = ofText .working options' source' :=
    ofOptions_of_lists .working read' _ _ h'
  have htokens : report.stderr = report'.stderr → Token.ofText source = Token.ofText source' := by
    intro hstderr
    -- The rows are read off both, and a row has one token.
    refine List.map_injective_iff.mpr rowChars_injective ?_
    rw [← takeWhile_lines_stderr options source h.1, ← takeWhile_lines_stderr options' source' h'.1,
      ← hreport, ← hreport', hstderr]
  have hshow : options.showTokens = options'.showTokens := by
    rw [h.1, h'.1]
  refine ⟨⟨htokens, fun hsame => ?_⟩, fun hstderr hpipe => ?_⟩
  · -- Whether the answer is printed makes no difference to standard error.
    rw [hreport, hreport', stderr_ofText, stderr_ofText, hsame, tokenList, tokenList, hshow]
  · rw [hreport, hreport',
      ofText_congr .working options options' source source' (htokens hstderr) hshow hpipe]
    exact ⟨rfl, rfl⟩

/-- Two scripts that are written differently and fail. Their standard errors are the
    same, with the report behind the list, and so are their standard outputs. -/
theorem stdout_of_same_list :
    let source := "print 7 ;\nprint x ;"
    let source' := "\tprint 007 ; +\r\nprint\u2003x ; "
    let read := fun path => if path = "script" then some source else some source'
    let report := ofOptions .working read ⟨true, true, some "script"⟩
    let report' := ofOptions .working read ⟨true, true, some "copy"⟩
    report.stderr =
      String.join ["   1  keyword `print`\n", "   1  int literal `7`\n", "   1  separator `;`\n",
        "   2  keyword `print`\n", "   2  identifier `x`\n", "   2  separator `;`\n",
        "Error on line 2: Unknown variable 'x'.\n"] ∧
    report.stderr = report'.stderr ∧ Token.ofText source = Token.ofText source' ∧
    report.stdout = report'.stdout ∧ report.exitCode = report'.exitCode := by
  intro source source' read report report'
  have hstderr : report.stderr = report'.stderr := by decide +kernel
  have hlists : Lists read ⟨true, true, some "script"⟩ source := ⟨rfl, "script", rfl, rfl⟩
  have hlists' : Lists read ⟨true, true, some "copy"⟩ source' := ⟨rfl, "copy", rfl, rfl⟩
  have hsame := ofOptions_lists.2 read read _ _ source source' hlists hlists'
  exact ⟨by decide +kernel, hstderr, hsame.1.mp hstderr, hsame.2 hstderr rfl⟩

end Report

end CommandLine

end PrefixScript
