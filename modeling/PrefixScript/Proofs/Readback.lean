import PrefixScript.Proofs.Image
import PrefixScript.Proofs.Literals

/-!
# Reading Output Back

The output of a script as a text of the language.

What a script prints is written as literals are, so a printed value can be read
as the literal it is written like. There is one exception, which is no
limitation here: a minus sign spells nothing, so a negative number cannot be
read back, but a script never prints one.

Values that are printed without the end of a line run into each other, and then
the digits of two numbers are those of a third. If every print statement ends
its line, each value stands on a line of its own. Then the tokens of the output
are the values that were printed, in order, and the number of a line says which
one it is.

## Main definitions

* `Statement.endsLine`: A statement ends the line if it prints.
* `Statement.printed?`: The value that a statement prints.
* `Statement.printedValues`: The values that statements print one after the
  other.
* `Value.outputLines`: Values printed on lines of their own.

## Theorems

* `Token.ofLexeme?_chars`, `Token.ofLexeme?_chars_of_negative`: A written value is
  read as a literal, unless it is negative.
* `text_eq_of_endsLine`: What a statement prints if it ends its line.
* `kept_evalAll_eq_printedValues`: What a run prints if all statements do.
* `isLiteralOf_of_mem_printedValues`: Printed values are those of literals.
* `Token.ofText_outputLines`: Values on lines of their own are read back.
* `Outcome.ofText_readback`: The output of a script is read back.
-/

namespace PrefixScript

/-! ### Written values -/

/-- A negative number is written with a minus sign. -/
theorem Value.minus_mem_chars (n : Int64) (h : n.toInt < 0) : '-' ∈ (Value.int n).chars := by
  cases hn : n.toInt with
  | ofNat k =>
      have hpos := Int.natCast_nonneg k
      rw [hn, Int.ofNat_eq_natCast] at h
      omega
  | negSucc k =>
      simp only [chars, hn]
      exact List.mem_cons_self

namespace Token

/-- A value that is not negative is read back as a literal. -/
theorem ofLexeme?_chars (v : Value) (h : v.NonNegative) :
    ofLexeme? v.chars = some (.literal v) :=
  (ofLexeme?_eq_some_iff _ _).mpr (spells_spelling (.literal v) h)

/-- A negative number is not, since nothing is spelled with a minus sign. -/
theorem ofLexeme?_chars_of_negative (n : Int64) (h : n.toInt < 0) :
    ofLexeme? (Value.int n).chars = none := by
  rw [Option.eq_none_iff_forall_ne_some]
  intro token htoken
  have hspells := (ofLexeme?_eq_some_iff _ token).mp htoken
  -- No token has a minus sign in its spelling.
  rcases char_of_spells _ token hspells '-' (Value.minus_mem_chars n h) with hc | hc | hc <;>
    exact absurd hc (by decide)

end Token

/-! ### Printed values -/

namespace Statement

/-- Whether a statement ends the output line, if it prints at all. -/
def endsLine (statement : Statement) : Bool :=
  match statement.form? with
  | some (.write _ newline) => newline
  | _ => true

/-- The value that a statement prints, if it is a print statement and its operand has a
    value. -/
def printed? (statement : Statement) (env : Environment) : Option Value :=
  match statement.form? with
  | some (.write operand _) => (env.valueOf operand).toOption
  | _ => none

/-- The values that statements print one after the other, up to the first fault. -/
def printedValues : List Statement → Session → List Value
  | [], _ => []
  | statement :: rest, session =>
    match (statement.eval session).answer with
    | .error _ => []
    | .ok _ =>
      (statement.printed? session.environment).toList ++
        printedValues rest (statement.eval session).session

end Statement

/-- The output that consists of values on lines of their own. -/
def Value.outputLines (values : List Value) : String :=
  String.join (values.map fun v => v.text ++ "\n")

theorem Value.outputLines_append (values more : List Value) :
    outputLines (values ++ more) = outputLines values ++ outputLines more := by
  unfold outputLines
  rw [List.map_append, String.join_append]

namespace Statement

theorem printedValues_cons_of_error (statement : Statement) (rest : List Statement)
    (session : Session) (fault : Fault) (h : (statement.eval session).answer = .error fault) :
    printedValues (statement :: rest) session = [] := by
  rw [printedValues, h]

theorem printedValues_cons_of_ok (statement : Statement) (rest : List Statement)
    (session : Session) (value : Option Value) (h : (statement.eval session).answer = .ok value) :
    printedValues (statement :: rest) session =
      (statement.printed? session.environment).toList ++
        printedValues rest (statement.eval session).session := by
  rw [printedValues, h]

theorem exists_write_of_printed? (statement : Statement) (env : Environment) (v : Value)
    (h : statement.printed? env = some v) :
    ∃ operand newline, statement.form? = some (.write operand newline) ∧
      env.valueOf operand = .ok v := by
  unfold printed? at h
  split at h
  · rename_i operand newline hform
    refine ⟨operand, newline, hform, ?_⟩
    -- What is printed is the value of the operand, so it has one.
    cases hv : env.valueOf operand with
    | ok w =>
        rw [hv, Except.toOption, Option.some.injEq] at h
        rw [h]
    | error fault =>
        rw [hv] at h
        exact absurd h (by simp only [Except.toOption, reduceCtorEq, not_false_eq_true])
  · exact absurd h (by simp only [reduceCtorEq, not_false_eq_true])

/-- A statement that ends its line prints its value with a line feed, and otherwise
    nothing. -/
theorem text_eq_of_endsLine (statement : Statement) (env : Environment) (effect : Effect)
    (hline : statement.endsLine = true) (h : statement.effect env = .ok effect) :
    effect.text = Value.outputLines (statement.printed? env).toList := by
  unfold endsLine at hline
  unfold printed?
  -- Only the third form writes, and there the statement ends its line.
  rcases effect_cases statement env effect h with ⟨hform, rfl⟩ | ⟨_, _, _, hform, _, rfl⟩ |
    ⟨operand, newline, v, hform, hv, rfl⟩ | ⟨_, _, _, _, _, hform, _, _, rfl⟩
  · rw [hform]
    rfl
  · rw [hform]
    rfl
  · simp only [hform] at hline
    simp only [hform, hv, hline, Except.toOption, Option.toList_some, Value.outputLines, Value.printed,
      if_true, List.map_cons, List.map_nil, String.join_cons, String.join_nil, String.append_empty]
  · rw [hform]
    rfl

/-- What a run prints if all statements end their lines. -/
theorem kept_evalAll_eq_printedValues (statements : List Statement) (session : Session)
    (hroom : session.output.room = none) (hlines : ∀ statement ∈ statements, statement.endsLine = true) :
    (evalAll statements session).session.output.kept =
      session.output.kept ++ (Value.outputLines (printedValues statements session)).toUTF8 := by
  -- Over the statements, with the session before the next one; its sink stays unlimited.
  induction statements generalizing session with
  | nil => exact ByteArray.append_empty.symm
  | cons statement rest ih =>
      rw [evalAll_cons]
      cases heffect : statement.effect session.environment with
      | error fault =>
          -- The fault of an operand ends the run before anything is written.
          have heval := eval_of_effect_error statement session fault heffect
          rw [heval, printedValues_cons_of_error statement rest session fault (by rw [heval]; rfl)]
          exact ByteArray.append_empty.symm
      | ok effect =>
          have heval := eval_of_unlimited statement session effect hroom heffect
          have hkept : (statement.eval session).session.output.kept =
              session.output.kept ++ effect.text.toUTF8 := by
            rw [heval]
            exact session.output.kept_write_of_unlimited effect.text hroom
          have hrest := ih (statement.eval session).session
            (room_eval_of_unlimited statement session hroom)
            fun other hother => hlines other (List.mem_cons_of_mem statement hother)
          rw [Outcome.andThen_of_ok _ _ effect.answer (by rw [heval]), hrest, hkept,
            printedValues_cons_of_ok statement rest session effect.answer (by rw [heval]),
            Value.outputLines_append,
            ← text_eq_of_endsLine statement session.environment effect
              (hlines statement List.mem_cons_self) heffect]
          simp only [String.toUTF8_eq_toByteArray, String.toByteArray_append, ByteArray.append_assoc]

/-- Printed values are the values of literals, since all that is bound on the way is
    one. -/
theorem isLiteralOf_of_mem_printedValues (tokens : List (Located Token))
    (statements : List Statement) (session : Session)
    (hmem : ∀ statement ∈ statements, statement ∈ ofTokens tokens)
    (hliterals : LiteralsOnly tokens session.environment) :
    ∀ v ∈ printedValues statements session, IsLiteralOf tokens v := by
  induction statements generalizing session with
  | nil => exact fun v hv => absurd hv List.not_mem_nil
  | cons statement rest ih =>
      have hfirst := hmem statement List.mem_cons_self
      intro v hv
      cases heval : (statement.eval session).answer with
      | error fault =>
          rw [printedValues_cons_of_error statement rest session fault heval] at hv
          exact absurd hv List.not_mem_nil
      | ok value =>
          rw [printedValues_cons_of_ok statement rest session value heval, List.mem_append] at hv
          rcases hv with hv | hv
          · -- The operand of a print statement is one of the tokens, or a variable.
            rcases exists_write_of_printed? statement _ v (Option.mem_toList.mp hv) with
              ⟨operand, newline, hform, hvalue⟩
            have hoperand : operand ∈ statement.resolved := by
              rw [resolved, hform]
              exact List.mem_singleton_self operand
            exact isLiteralOf_of_valueOf tokens statement hfirst _ hliterals operand hoperand v hvalue
          · exact ih (statement.eval session).session
              (fun other hother => hmem other (List.mem_cons_of_mem statement hother))
              (literalsOnly_eval tokens statement hfirst session hliterals) v hv

end Statement

/-! ### Reading -/

/-- A lexeme alone on its line. -/
theorem Text.lineLayout_singleton (lexeme : List Char) (h : IsLexeme lexeme) :
    LineLayout [lexeme] lexeme := by
  have hbody := LineBody.last lexeme [] h isGap_nil
  rw [List.append_nil] at hbody
  exact .filled [] [lexeme] lexeme isGap_nil hbody

/-- Values on lines of their own are laid out like that. -/
theorem Value.layout_outputLines (values : List Value) (h : ∀ v ∈ values, v.NonNegative) :
    Text.Layout (values.map fun v => [v.chars]) (outputLines values).toList := by
  induction values with
  | nil => exact .nil
  | cons v rest ih =>
      have hlexeme := Token.isLexeme_spelling (.literal v) (h v List.mem_cons_self)
      have hrest := ih fun other hother => h other (List.mem_cons_of_mem v hother)
      -- The first value is a line of its own, with a line feed behind it.
      have htext : (outputLines (v :: rest)).toList = v.chars ++ ['\n'] ++ (outputLines rest).toList := by
        rw [outputLines, List.map_cons, String.join_cons, String.toList_append, String.toList_append,
          toList_text]
        rfl
      rw [htext]
      exact .cons [v.chars] v.chars ['\n'] _ _ (Text.lineLayout_singleton v.chars hlexeme) (Or.inl rfl)
        hrest

namespace Token

/-- Lines of one written value each are read as these values. -/
theorem ofLexemeLines_chars (start : Nat) (values : List Value)
    (h : ∀ v ∈ values, v.NonNegative) :
    ofLexemeLines start (values.map fun v => [v.chars]) =
      (values.zipIdx start).map fun (v, line) => ⟨.literal v, line⟩ := by
  induction values generalizing start with
  | nil => rfl
  | cons v rest ih =>
      -- A line with one value on it is read as that literal.
      have hline : ofLexemeLine start [v.chars] = [⟨.literal v, start⟩] := by
        refine ofLexemeLine_spelling start [⟨.literal v, start⟩] fun token htoken => ?_
        rw [List.mem_singleton.mp htoken]
        exact ⟨h v List.mem_cons_self, rfl⟩
      rw [List.map_cons, ofLexemeLines_cons, hline, List.zipIdx_cons, List.map_cons,
        ih (start + 1) fun other hother => h other (List.mem_cons_of_mem v hother)]
      rfl

/-- Values on lines of their own are read back, each on its line. -/
theorem ofText_outputLines (values : List Value) (h : ∀ v ∈ values, v.NonNegative) :
    ofText (Value.outputLines values) =
      (values.zipIdx 1).map fun (v, line) => ⟨.literal v, line⟩ := by
  rw [ofText, ofLines_of_layout 1 _ _ (Value.layout_outputLines values h)]
  exact ofLexemeLines_chars 1 values h

end Token

namespace Outcome

/-- A truth value and a number that is not negative are read as the literals they are
    written like, and a negative number is not read at all. So the output of a
    script whose print statements all end their lines is read back: it holds the
    values that were printed on lines of their own, and its tokens are these
    values, in order, each on its line, whether the script has gone well or not. -/
theorem ofText_readback :
    (∀ b, Token.ofLexeme? (Value.bool b).text.toList = some (.literal (.bool b))) ∧
    (∀ n : Int64, 0 ≤ n.toInt →
      Token.ofLexeme? (Value.int n).text.toList = some (.literal (.int n))) ∧
    (∀ n : Int64, n.toInt < 0 → Token.ofLexeme? (Value.int n).text.toList = none) ∧
    ∀ source, (∀ statement ∈ Statement.ofTokens (Token.ofText source),
        statement.endsLine = true) →
      let values := Statement.printedValues (Statement.ofTokens (Token.ofText source))
        (Session.start .unlimited)
      let output := String.join (values.map fun v => v.text ++ "\n")
      (ofText source .unlimited).session.output.kept = output.toUTF8 ∧
      Token.ofText output = (values.zipIdx 1).map fun (v, line) => ⟨.literal v, line⟩ := by
  refine ⟨fun b => ?_, fun n hn => ?_, fun n hn => ?_, fun source hlines => ?_⟩
  · rw [Value.toList_text]
    exact Token.ofLexeme?_chars (.bool b) trivial
  · have hhigh := n.toInt_lt
    rw [Value.toList_text]
    exact Token.ofLexeme?_chars (.int n) ⟨hn, by omega⟩
  · rw [Value.toList_text]
    exact Token.ofLexeme?_chars_of_negative n hn
  · intro values output
    have hkept := Statement.kept_evalAll_eq_printedValues _ (Session.start .unlimited) rfl hlines
    have hnonNegative : ∀ v ∈ values, v.NonNegative := by
      intro v hv
      refine Statement.nonNegative_of_isLiteralOf source v ?_
      refine Statement.isLiteralOf_of_mem_printedValues (Token.ofText source) _ _
        (fun _ hmem => hmem) (fun name w hw => ?_) v hv
      -- Nothing is bound at the start.
      exact absurd hw (by simp only [Session.start, Environment.get?_empty, reduceCtorEq,
        not_false_eq_true])
    exact ⟨hkept.trans ByteArray.empty_append, Token.ofText_outputLines values hnonNegative⟩

/-- A script that prints three values and then fails. The last number is the greatest
    there is, and the first one has lost its zeros. -/
theorem tokens_of_failed_output :
    let source := "let x 007 ; print\nlet y 1 ;\nprintln x ; println true ;\n" ++
      "println 9223372036854775807 ;\nprintln z ;"
    (ofText source .unlimited).answer = .error ⟨.unknownVariable "z", 5⟩ ∧
    (ofText source .unlimited).session.output.kept = "7\ntrue\n9223372036854775807\n".toUTF8 ∧
    Token.ofText "7\ntrue\n9223372036854775807\n" =
      [⟨.literal (.int 7), 1⟩, ⟨.literal (.bool true), 2⟩,
        ⟨.literal (.int 9223372036854775807), 3⟩] := by
  intro source
  have hlines : ∀ statement ∈ Statement.ofTokens (Token.ofText source),
      statement.endsLine = true := by
    decide +kernel
  have hvalues : Statement.printedValues (Statement.ofTokens (Token.ofText source))
      (Session.start .unlimited) = [.int 7, .bool true, .int 9223372036854775807] := by
    decide +kernel
  have hread := ofText_readback.2.2.2 source hlines
  rw [hvalues] at hread
  exact ⟨by decide +kernel, hread⟩

end Outcome

end PrefixScript
