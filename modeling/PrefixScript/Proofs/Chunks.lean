import Mathlib.Data.List.DropRight
import PrefixScript.Proofs.Partition
import PrefixScript.Proofs.Run
import PrefixScript.Token.Stream

/-!
# Chunks

A script that arrives in pieces.

Tokens need not be there all at once to be evaluated. A reader can take them in
pieces of any size, evaluate the statements that a piece closes, and carry the
tokens that are not closed yet over to the next piece. Where the tokens are cut
makes no difference: a statement that is cut in two is evaluated when its second
part has arrived, and a piece that ends with a separator leaves nothing to carry.

Besides these tokens, a reader has to remember the variables, the output and the
latest value. The value of a piece hides that of the pieces before it only if
there is one, and a fault in a piece is the end, whatever arrives later.

## Main definitions

* `Intake`: What a reader has to remember.
* `Intake.feed`: Reading one more piece.

## Theorems

* `unclosed_concat`, `unclosed_eq_rtakeWhile`: The unclosed tokens are those behind
  the last separator.
* `unclosed_append`: What is carried over is all that the next piece depends on.
* `foldl_feed`: Reading pieces is reading what they are pieces of.
* `evalAll_in_chunks`: A script can be read in pieces.
-/

namespace PrefixScript

/-- What a reader of pieces has to remember: the statements closed so far, the tokens
    that are in none of them yet, and the outcome of these statements. -/
structure Intake where
  statements : List Statement
  carried : List (Located Token)
  outcome : Outcome

namespace Intake

/-- Nothing has been read yet. -/
def start (session : Session) : Intake :=
  ⟨[], [], .idle session⟩

/-- Read one more piece. The tokens carried over come in front of it, and the
    statements that it closes are evaluated unless there has been a fault. -/
def feed (intake : Intake) (chunk : List (Located Token)) : Intake :=
  let tokens := intake.carried ++ chunk
  ⟨intake.statements ++ Statement.ofTokens tokens, Statement.unclosed tokens,
    intake.outcome.andThen (Statement.evalAll (Statement.ofTokens tokens))⟩

end Intake

namespace Statement

theorem unclosed_concat (tokens : List (Located Token)) (last : Located Token) :
    unclosed (tokens ++ [last]) =
      if last.item = .separator then [] else unclosed tokens ++ [last] := by
  induction tokens with
  | nil =>
      simp only [List.nil_append, unclosed, List.not_mem_nil, false_and, exists_false, or_false]
  | cons token rest ih =>
      rw [List.cons_append, unclosed, unclosed, ih]
      by_cases hlast : last.item = .separator
      · -- The last token closes all the others.
        rw [if_pos hlast, if_pos hlast, if_pos]
        exact Or.inr ⟨last, List.mem_append_right rest (List.mem_singleton_self last), hlast⟩
      · rw [if_neg hlast, if_neg hlast]
        have hlater : (∃ later ∈ rest ++ [last], later.item = .separator) ↔
            ∃ later ∈ rest, later.item = .separator := by
          simp only [List.mem_append, List.mem_singleton, or_and_right, exists_or, exists_eq_left,
            hlast, or_false]
        by_cases hclosed : token.item = .separator ∨ ∃ later ∈ rest, later.item = .separator
        · rw [if_pos hclosed, if_pos (by rwa [hlater])]
        · rw [if_neg hclosed, if_neg (by rwa [hlater]), List.cons_append]

/-- The unclosed tokens are those behind the last separator. -/
theorem unclosed_eq_rtakeWhile (tokens : List (Located Token)) :
    unclosed tokens = tokens.rtakeWhile fun token => token.item ≠ .separator := by
  induction tokens using List.reverseRecOn with
  | nil => rfl
  | append_singleton before last ih =>
      rw [unclosed_concat, List.rtakeWhile_concat, ih]
      -- A separator at the end leaves nothing over, and any other token is left over too.
      by_cases hlast : last.item = .separator
      · rw [if_pos hlast, if_neg (by simp only [hlast, ne_eq, not_true_eq_false, decide_false,
          Bool.false_eq_true, not_false_eq_true])]
      · rw [if_neg hlast, if_pos (decide_eq_true hlast)]

/-- What is carried over is all that the unclosed tokens of more tokens depend on. -/
theorem unclosed_append (before after : List (Located Token)) :
    unclosed (before ++ after) = unclosed (unclosed before ++ after) := by
  induction after using List.reverseRecOn with
  | nil =>
      -- What is left over has no separator, so all of it is left over again.
      rw [List.append_nil, List.append_nil, unclosed_eq_rtakeWhile, unclosed_eq_rtakeWhile,
        List.rtakeWhile_idempotent]
  | append_singleton earlier last ih =>
      rw [← List.append_assoc, ← List.append_assoc, unclosed_concat, unclosed_concat, ih]

/-- Reading pieces is reading what they are pieces of. -/
theorem foldl_feed (chunks : List (List (Located Token))) (session : Session) :
    chunks.foldl Intake.feed (.start session) =
      ⟨ofTokens chunks.flatten, unclosed chunks.flatten,
        evalAll (ofTokens chunks.flatten) session⟩ := by
  -- The last piece finds what all pieces before it have left.
  induction chunks using List.reverseRecOn with
  | nil => rfl
  | append_singleton before chunk ih =>
      rw [List.foldl_append, ih, List.flatten_append, List.flatten_singleton,
        ofTokens_append before.flatten chunk, unclosed_append before.flatten chunk,
        evalAll_append]
      rfl

/-- A script can be read in pieces. The tokens behind the last separator of the first
    piece are carried over, and with them the second piece has the rest of the
    statements. If the first piece fails, so does the whole, and in the same way.
    If not, the whole does what the second piece does where the first one has
    ended, and its value is that of the second piece if there is one. The same
    holds for any number of pieces. -/
theorem evalAll_in_chunks (a b : List (Located Token)) (chunks : List (List (Located Token)))
    (session : Session) :
    let first := evalAll (ofTokens a) session
    let second := evalAll (ofTokens (unclosed a ++ b)) first.session
    let whole := evalAll (ofTokens (a ++ b)) session
    unclosed a = a.rtakeWhile (fun token => token.item ≠ .separator) ∧
    ofTokens (a ++ b) = ofTokens a ++ ofTokens (unclosed a ++ b) ∧
    (∀ fault, first.answer = .error fault → whole = first) ∧
    (∀ earlier, first.answer = .ok earlier →
      whole.session = second.session ∧
      (∀ fault, second.answer = .error fault → whole.answer = .error fault) ∧
      ∀ later, second.answer = .ok later → whole.answer = .ok (later.or earlier)) ∧
    chunks.foldl Intake.feed (.start session) =
      ⟨ofTokens chunks.flatten, unclosed chunks.flatten,
        evalAll (ofTokens chunks.flatten) session⟩ := by
  intro first second whole
  -- The cut falls inside a statement, which is carried over to the second run as a whole.
  have hwhole : whole = first.andThen (evalAll (ofTokens (unclosed a ++ b))) := by
    rw [← evalAll_append, ← ofTokens_append]
  refine ⟨unclosed_eq_rtakeWhile a, ofTokens_append a b, fun fault hfault => ?_,
    fun earlier hearlier => ?_, foldl_feed chunks session⟩
  · rw [hwhole]
    exact Outcome.andThen_of_error _ _ fault hfault
  · have hboth : whole = ⟨Outcome.latest earlier second.answer, second.session⟩ := by
      rw [hwhole]
      exact Outcome.andThen_of_ok _ _ earlier hearlier
    rw [hboth]
    refine ⟨rfl, fun fault hfault => ?_, fun later hlater => ?_⟩
    · simp only [hfault, Outcome.latest]
    · simp only [hlater, Outcome.latest]

/-- A print statement may be cut in two. It is evaluated with the second piece, and the
    value of the first one stays. -/
theorem answer_of_cut_print :
    let a := Token.ofText "add 1 2 ; print"
    let b := Token.ofText "7 ; let x 1 ;"
    let session := Session.start .unlimited
    (evalAll (ofTokens a) session).answer = .ok (some (.int 3)) ∧
    (evalAll (ofTokens (unclosed a ++ b)) (evalAll (ofTokens a) session).session).answer = .ok none ∧
    (evalAll (ofTokens (a ++ b)) session).answer = .ok (some (.int 3)) := by
  intro a b session
  have hfirst : (evalAll (ofTokens a) session).answer = .ok (some (.int 3)) := by decide +kernel
  have hsecond : (evalAll (ofTokens (unclosed a ++ b))
      (evalAll (ofTokens a) session).session).answer = .ok none := by
    decide +kernel
  rcases evalAll_in_chunks a b [] session with ⟨_, _, _, hgoes, _⟩
  exact ⟨hfirst, hsecond, (hgoes _ hfirst).2.2 _ hsecond⟩

end Statement

end PrefixScript
