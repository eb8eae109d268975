import Mathlib.Data.List.DropRight
import PrefixScript.Proofs.Layout
import PrefixScript.Proofs.Provenance
import PrefixScript.Proofs.Rewording

/-!
# Insertion

Lines that may be put anywhere into a script.

A line is idle if nothing is left of it when the blanks at both ends are taken
off, or if what is left starts with two slashes. An idle line has no tokens,
whatever else stands in a comment, so the tokens of a script stay the same when
one is inserted, even in the middle of a statement. Only those below it move
down by one line. Since a run takes no notice of lines, it stays the same as
well, except that a fault from further down is reported one line further down.

## Main definitions

* `Text.trimmed`: A line without the blanks at both ends.
* `Text.IsIdle`: A line that is empty or a comment.
* `below`: Where lines are when one is inserted.

## Theorems

* `trimmed_eq_nil_iff`: Nothing is left of a line exactly if all of it is blank.
* `isComment_of_isPrefix_trimmed`: A line is a comment if it starts like one once trimmed.
* `ofLine_of_isIdle`: An idle line has no tokens.
* `ofText_insert`: The tokens of a text with an idle line inserted.
* `ofText_insert_idle`: A script with an idle line inserted.
-/

namespace PrefixScript

namespace Text

/-- A line without the blanks at its beginning and at its end. -/
def trimmed (line : List Char) : List Char :=
  (line.dropWhile isBlank).rdropWhile isBlank

/-- There is nothing on the line, or a comment. -/
def IsIdle (line : List Char) : Prop :=
  trimmed line = [] ∨ ['/', '/'] <+: trimmed line

theorem trimmed_eq_nil_iff (line : List Char) :
    trimmed line = [] ↔ ∀ c ∈ line, isBlank c = true := by
  rw [trimmed, List.rdropWhile_eq_nil_iff]
  constructor
  · intro h
    rw [← List.dropWhile_eq_nil_iff]
    -- What is left at the beginning would start with something that is not blank.
    cases hdrop : line.dropWhile isBlank with
    | nil => rfl
    | cons c rest =>
        have hblank := h c (by rw [hdrop]; exact List.mem_cons_self)
        have hnot := List.head?_dropWhile_not isBlank line
        rw [hdrop, List.head?_cons] at hnot
        simp only [hblank, Bool.true_eq_false] at hnot
  · intro h c hc
    exact h c ((List.dropWhile_sublist isBlank).mem hc)

theorem isComment_of_isPrefix_trimmed (line : List Char) (h : ['/', '/'] <+: trimmed line) :
    isComment line = true := by
  rw [isComment, List.isPrefixOf_iff_prefix]
  exact h.trans (List.rdropWhile_prefix isBlank _)

end Text

namespace Token

/-- An idle line has no tokens. -/
theorem ofLine_of_isIdle (number : Nat) (line : List Char) (hline : '\n' ∉ line)
    (h : Text.IsIdle line) : ofLine number line = [] := by
  rcases h with hempty | hcomment
  · -- Nothing but blanks is one gap.
    have hblank := (Text.trimmed_eq_nil_iff line).mp hempty
    have hgap : Text.IsGap line := fun c hc => ⟨hblank c hc, fun hn => hline (hn ▸ hc)⟩
    rw [ofLine, Text.lexemes_gap line hgap, List.filterMap_nil]
    exact ite_self []
  · rw [ofLine, Text.isComment_of_isPrefix_trimmed line hcomment, if_pos rfl]

theorem ofText_of_isIdle (line : String) (hline : '\n' ∉ line.toList)
    (h : Text.IsIdle line.toList) : ofText line = [] := by
  rw [ofText, Text.lines_of_newline_not_mem line.toList hline, ofLines_cons,
    ofLine_of_isIdle 1 line.toList hline h]
  rfl

/-- The place of a line when another one is inserted behind the first `kept`. -/
def below (kept line : Nat) : Nat :=
  if line ≤ kept then line else line + 1

/-- The tokens of a text with an idle line inserted are the same. Those below the line
    are one line further down. -/
theorem ofText_insert (before line after : String) (hline : '\n' ∉ line.toList)
    (h : Text.IsIdle line.toList) :
    ofText (before ++ "\n" ++ line ++ "\n" ++ after) =
      (ofText (before ++ "\n" ++ after)).map
        (Located.relocate (below (1 + before.toList.count '\n'))) := by
  have hcount : (before ++ "\n" ++ line).toList.count '\n' = before.toList.count '\n' + 1 := by
    rw [String.toList_append, String.toList_append, List.count_append, List.count_append,
      List.count_eq_zero_of_not_mem hline]
    rfl
  rw [ofText_append (before ++ "\n" ++ line) after, ofText_append before line,
    ofText_of_isIdle line hline h, List.map_nil, List.append_nil, ofText_append before after,
    List.map_append, List.map_map, hcount]
  congr 1
  · -- The tokens in front of the line stay where they are.
    refine (List.map_id _).symm.trans (List.map_congr_left fun token htoken => ?_)
    have hle := line_le_of_mem_ofText before token htoken
    rw [id, Located.relocate, below, if_pos hle]
  · refine List.map_congr_left fun token htoken => ?_
    have hpos := one_le_line_of_mem_ofText after token htoken
    have hbelow : ¬ token.line + (1 + before.toList.count '\n') ≤ 1 + before.toList.count '\n' := by
      omega
    rw [Function.comp_apply, Located.relocate, Located.relocate, Located.relocate, below,
      if_neg hbelow, ← Nat.add_assoc 1, Nat.add_assoc token.line]

end Token

namespace Outcome

/-- A script with an idle line inserted. It has the same tokens, writes the same and
    has the same answer or the same fault; only what is below the line has moved
    down by one, and a fault from there is reported further down. -/
theorem ofText_insert_idle (before line after : String) (output : Sink)
    (hline : '\n' ∉ line.toList) (hidle : Text.IsIdle line.toList) :
    let longer := before ++ "\n" ++ line ++ "\n" ++ after
    let shorter := before ++ "\n" ++ after
    let moved := Token.below (1 + before.toList.count '\n')
    (ofText longer output).session = (ofText shorter output).session ∧
    (∀ value, (ofText longer output).answer = .ok value ↔
      (ofText shorter output).answer = .ok value) ∧
    ∀ cause number, (ofText shorter output).answer = .error ⟨cause, number⟩ →
      (ofText longer output).answer = .error ⟨cause, moved number⟩ := by
  intro longer shorter moved
  have hrun := Statement.evalAll_relocate (Token.below (1 + before.toList.count '\n'))
    (Token.ofText shorter) (Session.start output)
  rw [← Token.ofText_insert before line after hline hidle] at hrun
  -- The tokens differ by their lines only, and lines do not matter to a run.
  have hlonger : ofText longer output =
      ⟨(ofText shorter output).answer.mapError
        (Fault.relocate (Token.below (1 + before.toList.count '\n'))),
        (ofText shorter output).session⟩ := hrun
  rw [hlonger]
  refine ⟨rfl, fun value => ?_, fun cause number hfault => ?_⟩
  · cases (ofText shorter output).answer with
    | ok _ => rfl
    | error fault => simp only [Except.mapError, reduceCtorEq]
  · rw [hfault]
    rfl

/-- A comment in the middle of a statement. Neither its separator nor its keyword
    counts, and the operand behind it is reported where it stands now. -/
theorem answer_of_commented_operand :
    '\n' ∉ "\t// print 1 ; ".toList ∧ Text.IsIdle "\t// print 1 ; ".toList ∧
    (ofText ("let x 1 ;\nprint" ++ "\n" ++ "y ;") .unlimited).answer =
      .error ⟨.unknownVariable "y", 3⟩ ∧
    (ofText ("let x 1 ;\nprint" ++ "\n" ++ "\t// print 1 ; " ++ "\n" ++ "y ;") .unlimited).answer =
      .error ⟨.unknownVariable "y", 4⟩ := by
  have hline : '\n' ∉ "\t// print 1 ; ".toList := by decide +kernel
  -- The line is a comment, behind a tabulator.
  have hidle : Text.IsIdle "\t// print 1 ; ".toList :=
    Or.inr (List.isPrefixOf_iff_prefix.mp (by decide +kernel))
  have hshorter : (ofText ("let x 1 ;\nprint" ++ "\n" ++ "y ;") .unlimited).answer =
      .error ⟨.unknownVariable "y", 3⟩ := by
    decide +kernel
  exact ⟨hline, hidle, hshorter,
    (ofText_insert_idle "let x 1 ;\nprint" "\t// print 1 ; " "y ;" .unlimited hline hidle).2.2 _ 3
      hshorter⟩

end Outcome

end PrefixScript
