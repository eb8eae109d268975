import PrefixScript.Proofs.Partition
import PrefixScript.Proofs.Provenance
import PrefixScript.Proofs.Run
import PrefixScript.Script

/-!
# Blame

What the line in the report of a fault has to do with the text.

A fault is reported for a line, and the line is that of one operand. On the way
from the text to the report the operand has been a lexeme, then a token of the
text, then a token of a statement, and at last an operand of the form that the
statement has. The line was carried along all the way, so it is the line of the
lexeme, whatever line its statement starts on, and whatever else stands on
either line.

The lexeme can be read off the report. It is the name or the digits that the
report quotes, and if the output has failed it is what the statement was about
to print.

## Main definitions

* `Text.lineCount`: How many lines a text has for people.
* `Statement.Blames`: The operand that a fault of a statement is blamed on.
* `Statement.Quotes`: The lexeme that the report of a fault is about.

## Theorems

* `exists_blames`: Every fault of a statement is blamed on one of its operands.
* `line_le_of_mem_tokens`: A statement starts on its first line and is closed on
  its last.
* `length_le_lineCount`: Only the last line may not count.
* `quotes_of_blames`: The report is about the lexeme of the operand to blame.
* `exists_lexeme_of_fault`: The line of a fault is the line of the lexeme to blame.
-/

namespace PrefixScript

namespace Text

/-- The number of lines of a text. What follows the last line feed is a line only
    if there is something. -/
def lineCount (text : List Char) : Nat :=
  if text = [] ∨ text.getLast? = some '\n' then text.count '\n' else text.count '\n' + 1

/-- Only the last line of a text may not count, and only if it is empty. -/
theorem length_le_lineCount (text : List Char) (above below : List (List Char))
    (line : List Char) (h : lines text = above ++ line :: below) (hne : line ≠ []) :
    above.length + 1 ≤ lineCount text := by
  have hlength := length_lines text
  rw [h, List.length_append, List.length_cons] at hlength
  unfold lineCount
  by_cases hend : text = [] ∨ text.getLast? = some '\n'
  · rw [if_pos hend]
    -- The line cannot be the last one, which is empty.
    have hbelow : below ≠ [] := by
      rintro rfl
      refine hne ?_
      have hlast : (lines text).getLast? = some line := by
        rw [h, List.getLast?_append, List.getLast?_singleton, Option.some_or]
      rcases hend with rfl | hfeed
      · exact (Option.some.inj hlast).symm
      · rcases List.getLast?_eq_some_iff.mp hfeed with ⟨init, rfl⟩
        rw [lines_append_newline, List.getLast?_append] at hlast
        exact (Option.some.inj hlast).symm
    have hpos := List.length_pos_iff.mpr hbelow
    omega
  · rw [if_neg hend]
    omega

end Text

namespace Statement

/-- The operand of a statement that a cause is blamed on, given the variables: a name
    without a value, a literal without one, or whatever was to be printed. -/
def Blames (statement : Statement) (env : Environment) (cause : Cause)
    (operand : Located Operand) : Prop :=
  match cause with
  | .unknownVariable x => operand.item = .name x ∧ env.get? x = none
  | .literalTooLarge digits => operand.item = .oversized digits
  | .outputFailed _ => ∃ newline, statement.form? = some (.write operand newline)

/-- What the report of a cause says about the lexeme to blame, and about the token it
    was read as: it is the name that has no value, or the digits that are too
    large, or it stands for what was to be printed. -/
def Quotes (statement : Statement) (env : Environment) (cause : Cause) (token : Located Token)
    (lexeme : List Char) : Prop :=
  match cause with
  | .unknownVariable x => lexeme = x.toList ∧ env.get? x = none
  | .literalTooLarge digits =>
    lexeme = digits.toList ∧ (∀ c ∈ lexeme, c.isDigit = true) ∧ 2 ^ 63 ≤ Decimal.value lexeme
  | .outputFailed _ => ∃ operand newline,
    statement.form? = some (.write operand newline) ∧ token.operand? = some operand

theorem blames_of_fault? (statement : Statement) (env : Environment)
    (operand : Located Operand) (fault : Fault) (h : env.fault? operand = some fault) :
    operand.line = fault.line ∧ statement.Blames env fault.cause operand := by
  rcases env.fault?_cases operand fault h with ⟨digits, hitem, rfl⟩ | ⟨x, hitem, hx, rfl⟩
  · exact ⟨rfl, hitem⟩
  · exact ⟨rfl, hitem, hx⟩

/-- Every fault of a statement is blamed on one of its operands, whose line it
    carries. -/
theorem exists_blames (statement : Statement) (session : Session) (fault : Fault)
    (h : (statement.eval session).answer = .error fault) :
    ∃ operand ∈ statement.resolved, operand.line = fault.line ∧
      statement.Blames session.environment fault.cause operand := by
  rcases statement.eval_cases session with ⟨first, heffect, heval⟩ | ⟨effect, _, heval⟩ |
    ⟨effect, heffect, htext, heval⟩
  · rw [heval, Outcome.stopped, Except.error.injEq] at h
    rw [effect_eq_error_iff, h] at heffect
    rcases List.exists_of_findSome?_eq_some heffect with ⟨operand, hoperand, hfault⟩
    exact ⟨operand, hoperand, statement.blames_of_fault? _ operand fault hfault⟩
  · rw [heval] at h
    exact absurd h (by simp only [reduceCtorEq, not_false_eq_true])
  · -- There is a text that was refused, so this is a print statement.
    rcases form?_of_text_ne_empty statement _ effect heffect htext with
      ⟨operand, newline, hform, hline⟩
    rw [heval, Outcome.stopped, Except.error.injEq] at h
    rw [← h]
    refine ⟨operand, ?_, hline.symm, newline, hform⟩
    rw [resolved, hform]
    exact List.mem_singleton_self operand

/-- The report quotes the lexeme that the operand to blame was read from. -/
theorem quotes_of_blames (statement : Statement) (env : Environment) (cause : Cause)
    (operand : Located Operand) (token : Located Token) (lexeme : List Char)
    (hblames : statement.Blames env cause operand) (htoken : token.operand? = some operand)
    (hspells : Token.Spells lexeme token.item) : statement.Quotes env cause token lexeme := by
  have hitem := ((token.operand?_eq_some_iff operand).mp htoken).1
  cases cause with
  -- A failed output quotes no lexeme; it is blamed on the operand of a print statement.
  | outputFailed details =>
      rcases hblames with ⟨newline, hform⟩
      exact ⟨operand, newline, hform, htoken⟩
  | unknownVariable x =>
      rw [hitem, hblames.1] at hspells
      exact ⟨Token.eq_toList_of_spells_identifier lexeme x hspells, hblames.2⟩
  | literalTooLarge digits =>
      rw [Blames] at hblames
      rw [hitem, hblames] at hspells
      have hlexeme := Token.eq_toList_of_spells_oversized lexeme digits hspells
      rw [Quotes, hlexeme]
      exact ⟨rfl, Token.lexical_of_spells lexeme _ hspells⟩

/-- A statement starts on the line of its first token and is closed on that of its
    last. -/
theorem line_le_of_mem_tokens (statement : Statement)
    (hsorted : statement.tokens.Pairwise fun token later => token.line ≤ later.line)
    (token closing : Located Token) (inner : List (Located Token))
    (htoken : token ∈ statement.tokens) (hclosing : statement.tokens = inner ++ [closing]) :
    statement.line ≤ token.line ∧ token.line ≤ closing.line := by
  constructor
  · -- The first token is on the line of the statement, and lines only increase.
    rw [line]
    rcases hfirst : statement.tokens with _ | ⟨first, rest⟩
    · exact Nat.zero_le _
    · rw [hfirst] at hsorted htoken
      rcases List.mem_cons.mp htoken with rfl | hrest
      · exact Nat.le_refl _
      · exact (List.pairwise_cons.mp hsorted).1 token hrest
  · rw [hclosing] at hsorted htoken
    -- The separator comes last, so no token is on a later line.
    rcases List.mem_append.mp htoken with hinner | hlast
    · exact (List.pairwise_append.mp hsorted).2.2 token hinner closing (List.mem_singleton_self _)
    · exact Nat.le_of_eq (congrArg Located.line (List.mem_singleton.mp hlast))

end Statement

theorem Token.getElem?_of_readFrom (lines : List (List Char)) (earlier : List (Located Token))
    (token : Located Token) (line lexeme : List Char)
    (h : ReadFrom 1 lines earlier token line lexeme) :
    lines[token.line - 1]? = some line ∧ Text.isComment line = false ∧
      lexeme ∈ Text.lexemes line := by
  rcases h with ⟨above, below, left, right, rfl, hcomment, hlexemes, hnumber, _, _⟩
  refine ⟨?_, hcomment, ?_⟩
  · -- Lines are counted from one and positions from zero.
    rw [hnumber, Nat.add_sub_cancel_left, List.getElem?_append_right (Nat.le_refl _), Nat.sub_self]
    rfl
  · rw [hlexemes]
    exact List.mem_append_right left List.mem_cons_self

theorem Token.line_le_lineCount_of_readFrom (text : List Char) (earlier : List (Located Token))
    (token : Located Token) (line lexeme : List Char)
    (h : ReadFrom 1 (Text.lines text) earlier token line lexeme) :
    1 ≤ token.line ∧ token.line ≤ Text.lineCount text := by
  rcases h with ⟨above, below, left, right, hlines, _, hlexemes, hnumber, _, _⟩
  -- A line that has a lexeme is not empty.
  have hne : line ≠ [] := by
    rintro rfl
    rw [Text.lexemes_nil] at hlexemes
    exact absurd hlexemes.symm (by simp only [List.append_eq_nil_iff, reduceCtorEq, and_false,
      not_false_eq_true])
  have hcount := Text.length_le_lineCount text above below line hlines hne
  omega

namespace Outcome

/-- If a script fails, some token of the failing statement was read from a lexeme on
    the line of the fault, and the lexeme is what the report is about. The line is
    a line of the text and no comment, and it lies between the one the statement
    starts on and the one it is closed on. -/
theorem exists_lexeme_of_fault (source : String) (output : Sink) (fault : Fault)
    (h : (ofText source output).answer = .error fault) :
    ∃ before statement after sooner token later line lexeme,
      Statement.ofTokens (Token.ofText source) = before ++ statement :: after ∧
      (let reached := Statement.evalAll before (Session.start output)
       reached.Completed ∧ (statement.eval reached.session).answer = .error fault ∧
        statement.Quotes reached.session.environment fault.cause token lexeme) ∧
      (1 ≤ fault.line ∧ fault.line ≤ Text.lineCount source.toList) ∧
      (statement.line ≤ fault.line ∧ ∃ inner closing, statement.tokens = inner ++ [closing] ∧
        closing.item = .separator ∧ fault.line ≤ closing.line) ∧
      (Text.lines source.toList)[fault.line - 1]? = some line ∧ Text.isComment line = false ∧
      lexeme ∈ Text.lexemes line ∧
      statement.tokens = sooner ++ token :: later ∧ token.line = fault.line ∧
      Token.ReadFrom 1 (Text.lines source.toList)
        (before.flatMap Statement.tokens ++ sooner) token line lexeme := by
  rcases (Statement.answer_evalAll_eq_error_iff _ _ fault).mp h with
    ⟨before, statement, after, hsplit, hdone, hfault⟩
  -- From the fault to the operand, the token and the lexeme.
  rcases statement.exists_blames _ fault hfault with ⟨operand, hresolved, hline, hblames⟩
  rcases statement.exists_token_of_mem_resolved operand hresolved with ⟨token, hmem, htoken⟩
  rcases List.append_of_mem hmem with ⟨sooner, later, htokens⟩
  rcases Statement.exists_split_of_ofTokens _ before after statement sooner later token hsplit
    htokens with ⟨behind, hsource⟩
  rcases Token.exists_readFrom source _ behind token hsource with ⟨line, lexeme, hread⟩
  have hnumber : token.line = fault.line :=
    ((token.operand?_eq_some_iff operand).mp htoken).2.trans hline
  have hspells : Token.Spells lexeme token.item := by
    rcases hread with ⟨_, _, _, _, _, _, _, _, hitem, _⟩
    exact (Token.ofLexeme?_eq_some_iff lexeme token.item).mp hitem
  -- The tokens of the statement are in the order of the text.
  have hstatement : statement ∈ Statement.ofTokens (Token.ofText source) := by
    rw [hsplit]
    exact List.mem_append_right before List.mem_cons_self
  have hsorted := (Token.pairwise_line_ofText source).sublist
    (Statement.sublist_of_mem_ofTokens _ statement hstatement)
  rcases Statement.exists_closing_of_mem_ofTokens _ statement hstatement with
    ⟨inner, closing, hclosing, hseparator, _⟩
  have hbetween := statement.line_le_of_mem_tokens hsorted token closing inner hmem hclosing
  have hcount := Token.line_le_lineCount_of_readFrom _ _ token line lexeme hread
  have hplace := Token.getElem?_of_readFrom _ _ token line lexeme hread
  rw [hnumber] at hbetween hcount hplace
  exact ⟨before, statement, after, sooner, token, later, line, lexeme, hsplit,
    ⟨hdone, hfault, statement.quotes_of_blames _ _ operand token lexeme hblames htoken hspells⟩,
    hcount, ⟨hbetween.1, inner, closing, hclosing, hseparator, hbetween.2⟩, hplace.1, hplace.2.1,
    hplace.2.2, htokens, hnumber, hread⟩

/-- The statement starts on the second line and is closed on the fifth, and what it
    prints stands on the fourth, behind a comment and among lexemes that are no
    token. -/
theorem lexeme_of_late_operand :
    (ofText "let a 1 ;\nprintln @\n// note\n  _b @\n;" .unlimited).answer =
      .error ⟨.unknownVariable "_b", 4⟩ ∧
    ∃ line, (Text.lines "let a 1 ;\nprintln @\n// note\n  _b @\n;".toList)[3]? = some line ∧
      Text.isComment line = false ∧ "_b".toList ∈ Text.lexemes line := by
  have hfault : (ofText "let a 1 ;\nprintln @\n// note\n  _b @\n;" .unlimited).answer =
      .error ⟨.unknownVariable "_b", 4⟩ := by
    decide +kernel
  rcases exists_lexeme_of_fault _ _ _ hfault with ⟨_, _, _, _, _, _, line, lexeme, _,
    ⟨_, _, hname, _⟩, _, _, hline, hcomment, hlexeme, _⟩
  rw [hname] at hlexeme
  exact ⟨hfault, line, hline, hcomment, hlexeme⟩

end Outcome

end PrefixScript
