import PrefixScript.Proofs.Blame
import PrefixScript.Proofs.Rewording

/-!
# Line Numbers

What the lines of tokens are good for.

A line is carried along from the text to the report of a fault, and nothing on
the way looks at it. Put the tokens of a script on any other lines, in any order
and as many on one line as you like, and the script is cut into the same
statements, binds, prints and answers the same. If it fails, it fails for the
same cause at the same operand, and what is reported is the line this operand
has now.

That it is the line of the same operand needs saying when two scripts have the
same tokens but there is no rule that leads from the lines of one to the lines
of the other, since tokens that share a line in one of them need not do so in
the other. Both are then compared with a third script, which has the same tokens
too and in which every token has its position for a line. A fault of this script
tells the position, and the lines of the other two at this position are the
lines that they report.

## Main definitions

* `Statement.relocate`: A statement on other lines.
* `Token.numbered`: Tokens with their positions for lines.
* `Token.lineAt`: The line of the token at a position.
* `Outcome.SameButForLines`: Two outcomes differ in the line of a fault at most.

## Theorems

* `ofTokens_relocate`: Tokens on other lines are cut into the same statements.
* `line_relocate`: The line of a statement is that of its first token.
* `Token.map_relocate_numbered`: The lines of tokens can be put back.
* `exists_token_of_fault`: The line of a fault is the line of a token.
* `answer_relocate`: Other lines change the line of a fault and nothing else.
* `sameButForLines_of_same_items`: Scripts with the same tokens fail at the same
  position.
* `evalAll_on_other_lines`: Lines reach the reports of faults and nothing else.
-/

namespace PrefixScript

namespace Token

/-- Tokens in a row, each with its position for a line. -/
def numbered (items : List Token) : List (Located Token) :=
  items.zipIdx.map fun (item, position) => ⟨item, position⟩

/-- The line of the token at a position, or zero behind the last one. -/
def lineAt (tokens : List (Located Token)) (position : Nat) : Nat :=
  match tokens[position]? with
  | some token => token.line
  | none => 0

theorem lineAt_of_getElem? (tokens : List (Located Token)) (position : Nat)
    (token : Located Token) (h : tokens[position]? = some token) :
    lineAt tokens position = token.line := by
  rw [lineAt, h]

/-- The lines of tokens can be put back when the tokens have their positions for
    lines. -/
theorem map_relocate_numbered (tokens : List (Located Token)) :
    (numbered (tokens.map Located.item)).map (Located.relocate (lineAt tokens)) = tokens := by
  -- Position by position; the line that is put back is looked up at the position.
  refine List.ext_getElem? fun k => ?_
  rw [numbered, List.getElem?_map, List.getElem?_map, List.getElem?_zipIdx, List.getElem?_map]
  cases htoken : tokens[k]? with
  | none => rfl
  | some token =>
      simp only [Option.map_some, Located.relocate, Nat.zero_add,
        lineAt_of_getElem? tokens k token htoken]

theorem line_lt_of_mem_numbered (items : List Token) (token : Located Token)
    (h : token ∈ numbered items) : token.line < items.length := by
  unfold numbered at h
  rcases List.mem_map.mp h with ⟨⟨item, position⟩, hmem, rfl⟩
  have hlt := List.snd_lt_add_of_mem_zipIdx hmem
  rwa [Nat.zero_add] at hlt

end Token

/-- Two outcomes, each of a script with its own tokens, differ in the line of a fault at
    most. Either line is that of the token at one position. -/
structure Outcome.SameButForLines (tokens tokens' : List (Located Token))
    (outcome outcome' : Outcome) : Prop where
  session : outcome'.session = outcome.session
  value : ∀ value, outcome'.answer = .ok value ↔ outcome.answer = .ok value
  fault : ∀ cause line, outcome.answer = .error ⟨cause, line⟩ →
    ∃ (position : Nat) (token token' : Located Token), tokens[position]? = some token ∧
      tokens'[position]? = some token' ∧ token.line = line ∧
      outcome'.answer = .error ⟨cause, token'.line⟩

namespace Statement

/-- The statement, on other lines. -/
def relocate (f : Nat → Nat) (statement : Statement) : Statement :=
  ⟨statement.tokens.map (Located.relocate f)⟩

/-- Tokens on other lines are cut into the same statements. -/
theorem ofTokens_relocate (f : Nat → Nat) (tokens : List (Located Token)) :
    ofTokens (tokens.map (Located.relocate f)) = (ofTokens tokens).map (relocate f) := by
  have hlocated : (Rewording.onLines f).located (Rewording.onLines f).token = Located.relocate f :=
    funext (Rewording.located_onLines f)
  have hcut := (Rewording.onLines f).ofTokens_located tokens
  rw [hlocated] at hcut
  rw [hcut]
  -- A statement with the same names on other lines is the statement on other lines.
  refine List.map_congr_left fun statement _ => ?_
  rw [Rewording.statement, hlocated, relocate]

theorem line_relocate (f : Nat → Nat) (statement : Statement) (h : statement.tokens ≠ []) :
    (statement.relocate f).line = f statement.line := by
  rcases statement with ⟨_ | ⟨first, rest⟩⟩
  · exact absurd rfl h
  · rfl

/-- The line of a fault is the line of a token. -/
theorem exists_token_of_fault (tokens : List (Located Token)) (session : Session) (fault : Fault)
    (h : (evalAll (ofTokens tokens) session).answer = .error fault) :
    ∃ token ∈ tokens, token.line = fault.line := by
  rcases (answer_evalAll_eq_error_iff _ session fault).mp h with
    ⟨before, statement, after, hsplit, _, hfault⟩
  -- From the fault to the operand, and from the operand to the token.
  rcases exists_blames statement _ fault hfault with ⟨operand, hoperand, hline, _⟩
  rcases exists_token_of_mem_resolved statement operand hoperand with ⟨token, htoken, hread⟩
  have hmem : statement ∈ ofTokens tokens := by
    rw [hsplit]
    exact List.mem_append_right before List.mem_cons_self
  refine ⟨token, (sublist_of_mem_ofTokens tokens statement hmem).mem htoken, ?_⟩
  rw [((token.operand?_eq_some_iff operand).mp hread).2, hline]

/-- Other lines change the line of a fault and nothing else. -/
theorem answer_relocate (f : Nat → Nat) (tokens : List (Located Token)) (session : Session) :
    let original := evalAll (ofTokens tokens) session
    let relocated := evalAll (ofTokens (tokens.map (Located.relocate f))) session
    relocated.session = original.session ∧
    (∀ value, relocated.answer = .ok value ↔ original.answer = .ok value) ∧
    ∀ fault, original.answer = .error fault → relocated.answer = .error (fault.relocate f) := by
  intro original relocated
  have hrun : relocated = ⟨original.answer.mapError (Fault.relocate f), original.session⟩ :=
    evalAll_relocate f tokens session
  rw [hrun]
  refine ⟨rfl, fun value => ?_, fun fault hfault => ?_⟩
  · -- A value has no line in it.
    cases original.answer with
    | ok other => rfl
    | error fault => simp only [Except.mapError, reduceCtorEq]
  · rw [hfault]
    rfl

/-- Two scripts with the same tokens on different lines do the same. If they fail, they
    fail for the same cause, and the lines they report are those of the tokens at one
    position. -/
theorem sameButForLines_of_same_items (tokens tokens' : List (Located Token))
    (session : Session) (h : tokens.map Located.item = tokens'.map Located.item) :
    Outcome.SameButForLines tokens tokens' (evalAll (ofTokens tokens) session)
      (evalAll (ofTokens tokens') session) := by
  -- Both scripts are the numbered one with the lines put back.
  have hfirst := answer_relocate (Token.lineAt tokens) (Token.numbered (tokens.map Located.item))
    session
  have hsecond := answer_relocate (Token.lineAt tokens')
    (Token.numbered (tokens'.map Located.item)) session
  rw [Token.map_relocate_numbered] at hfirst hsecond
  rw [← h] at hsecond
  rcases hfirst with ⟨hsession, hvalue, hfault⟩
  rcases hsecond with ⟨hsession', hvalue', hfault'⟩
  refine ⟨hsession'.trans hsession.symm, fun value => (hvalue' value).trans (hvalue value).symm,
    fun cause line herror => ?_⟩
  cases hnumbered : (evalAll (ofTokens (Token.numbered (tokens.map Located.item))) session).answer with
  | ok value =>
      rw [(hvalue value).mpr hnumbered] at herror
      exact absurd herror (by simp only [reduceCtorEq, not_false_eq_true])
  | error fault =>
      -- The line of this fault is a position, and there is a token at it in both scripts.
      rcases exists_token_of_fault _ session fault hnumbered with ⟨numbered, hmem, hline⟩
      have hlt := Token.line_lt_of_mem_numbered _ numbered hmem
      have hlt' := hlt
      rw [h] at hlt'
      rw [List.length_map, hline] at hlt hlt'
      have htoken := List.getElem?_eq_getElem hlt
      have htoken' := List.getElem?_eq_getElem hlt'
      rw [hfault fault hnumbered, Except.error.injEq, Fault.relocate, Fault.mk.injEq,
        Token.lineAt_of_getElem? tokens _ _ htoken] at herror
      refine ⟨fault.line, _, _, htoken, htoken', herror.2, ?_⟩
      rw [← herror.1, ← Token.lineAt_of_getElem? tokens' _ _ htoken']
      exact hfault' fault hnumbered

/-- Lines reach the reports of faults and nothing else. When the tokens of a script are
    put on other lines, the statements are the same and start where their first tokens
    are now; the run binds, prints and answers the same, and a fault is the same but
    for its line, which is where the old line has gone. Two texts with the same
    tokens, however they are spread over lines, make the same run, and if they fail,
    each of them reports the line that the same token has in it. -/
theorem evalAll_on_other_lines (f : Nat → Nat) (tokens : List (Located Token))
    (session : Session) :
    let original := evalAll (ofTokens tokens) session
    let relocated := evalAll (ofTokens (tokens.map (Located.relocate f))) session
    ofTokens (tokens.map (Located.relocate f)) = (ofTokens tokens).map (relocate f) ∧
    (∀ statement : Statement, statement.tokens ≠ [] →
      (statement.relocate f).line = f statement.line) ∧
    relocated.session = original.session ∧
    (∀ value, relocated.answer = .ok value ↔ original.answer = .ok value) ∧
    (∀ cause line, original.answer = .error ⟨cause, line⟩ →
      relocated.answer = .error ⟨cause, f line⟩) ∧
    ∀ source source' output,
      (Token.ofText source).map Located.item = (Token.ofText source').map Located.item →
      Outcome.SameButForLines (Token.ofText source) (Token.ofText source')
        (Outcome.ofText source output) (Outcome.ofText source' output) := by
  intro original relocated
  rcases answer_relocate f tokens session with ⟨hsession, hvalue, hfault⟩
  exact ⟨ofTokens_relocate f tokens, line_relocate f, hsession, hvalue,
    fun cause line herror => hfault ⟨cause, line⟩ herror,
    fun source source' output hitems => sameButForLines_of_same_items
      (Token.ofText source) (Token.ofText source') (Session.start output) hitems⟩

/-- Neither an order nor a difference of lines has to be kept. The report follows the
    operand, and not the keyword or the separator of its statement. -/
theorem answer_of_collapsed_lines :
    let source := "let x 1 ; print x ; print\ny\n;"
    let source' := "let\nx 1 ;\nprint x ; print y ;"
    let f : Nat → Nat := fun line => if line = 2 then 0 else 9
    let tokens := Token.ofText source
    let session := Session.start .unlimited
    (evalAll (ofTokens tokens) session).answer = .error ⟨.unknownVariable "y", 2⟩ ∧
    (evalAll (ofTokens (tokens.map (Located.relocate f))) session).answer =
      .error ⟨.unknownVariable "y", 0⟩ ∧
    (Token.ofText source).map Located.item = (Token.ofText source').map Located.item ∧
    (Outcome.ofText source' .unlimited).session.output.kept = "1".toUTF8 := by
  intro source source' f tokens session
  have hfault : (evalAll (ofTokens tokens) session).answer = .error ⟨.unknownVariable "y", 2⟩ := by
    decide +kernel
  have hitems : (Token.ofText source).map Located.item = (Token.ofText source').map Located.item := by
    decide +kernel
  -- The map merges two of the three lines and puts the third in front of them.
  rcases evalAll_on_other_lines f tokens session with ⟨_, _, _, _, hrelocated, hsources⟩
  refine ⟨hfault, hrelocated _ 2 hfault, hitems, ?_⟩
  rw [(hsources source source' .unlimited hitems).session]
  decide +kernel

end Statement

end PrefixScript
