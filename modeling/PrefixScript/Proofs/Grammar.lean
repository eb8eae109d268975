import PrefixScript.Command

/-!
# The Forms of Statements

The grammar of statements as a table, one row for each form, against the
reading of a statement from left to right.

Reading a statement goes through its tokens one by one: first the keyword, then
the operands up to the separator, and only then are they counted and put in
their places. The table shows the same thing at a glance. A statement has a form
if its tokens match a row as a whole, and it has the form of one command at
most. Everything that is said about what statements read, bind and print is said
in terms of the table.

## Main definitions

* `Operand.toToken`: The token that an operand is read from.
* `Located.operand?`: The operand that a token is, on the line of the token.
* `Statement.form?`: The command whose form a statement has.
* `Statement.resolved`: The operands whose values a statement needs.
* `Statement.target?`: The variable a statement binds.

## Theorems

* `Located.operand?_eq_some_iff`: An operand is read from one token only.
* `operands?_cons_of_ne_nil`: Operands are read one token at a time.
* `length_of_operands?`: There is one operand for each token but the separator.
* `command?_eq_form?`: A statement is the command whose form it has.
* `exists_token_of_mem_resolved`: What a statement needs are operands among its
  tokens.
* `target?_eq_some_iff`: Only bindings bind.
-/

namespace PrefixScript

/-- The token that an operand is read from. -/
def Operand.toToken : Operand → Token
  | .literal v => .literal v
  | .name x => .identifier x
  | .oversized digits => .oversized digits

theorem Operand.ofToken?_eq_some_iff (token : Token) (operand : Operand) :
    ofToken? token = some operand ↔ token = operand.toToken := by
  cases token <;> cases operand <;>
    simp only [ofToken?, toToken, Option.some.injEq, reduceCtorEq, literal.injEq, name.injEq,
      oversized.injEq, Token.literal.injEq, Token.identifier.injEq, Token.oversized.injEq]

/-- The operand that a token is, on the line of the token. -/
def Located.operand? (token : Located Token) : Option (Located Operand) :=
  (Operand.ofToken? token.item).map fun operand => ⟨operand, token.line⟩

theorem Located.operand?_eq_some_iff (token : Located Token) (operand : Located Operand) :
    token.operand? = some operand ↔
      token.item = operand.item.toToken ∧ token.line = operand.line := by
  rcases operand with ⟨item, line⟩
  rw [operand?, Option.map_eq_some_iff, ← Operand.ofToken?_eq_some_iff]
  constructor
  · rintro ⟨item', hitem, hoperand⟩
    rw [mk.injEq] at hoperand
    rw [hitem, hoperand.1]
    exact ⟨rfl, hoperand.2⟩
  · rintro ⟨hitem, hline⟩
    exact ⟨item, hitem, by rw [hline]⟩

namespace Statement

/-- The command whose form a statement has: a binding, a print statement with or
    without the end of the line, or an operator, each with a separator after
    its last operand. -/
def form? (statement : Statement) : Option Command :=
  match statement.tokens with
  | [⟨.keyword .bind, _⟩, ⟨.identifier target, _⟩, source, ⟨.separator, _⟩] =>
    source.operand?.map fun source => .bind target source
  | [⟨.keyword .print, _⟩, operand, ⟨.separator, _⟩] =>
    operand.operand?.map fun operand => .write operand false
  | [⟨.keyword .println, _⟩, operand, ⟨.separator, _⟩] =>
    operand.operand?.map fun operand => .write operand true
  | [⟨.keyword (.operator op), _⟩, left, right, ⟨.separator, _⟩] =>
    left.operand?.bind fun left => right.operand?.map fun right => .compute op left right
  | _ => none

/-- The operands whose values a statement needs, in the order of its tokens. A
    statement without a form needs none. -/
def resolved (statement : Statement) : List (Located Operand) :=
  match statement.form? with
  | some command => command.operands
  | none => []

/-- The variable that a statement binds, if it has the form of a binding. -/
def target? (statement : Statement) : Option String :=
  statement.form?.bind Command.target?

theorem operands?_cons_of_ne_nil (token : Located Token) (rest : List (Located Token))
    (h : rest ≠ []) :
    operands? (token :: rest) =
      token.operand?.bind fun operand => (operands? rest).map fun operands => operand :: operands := by
  cases rest with
  | nil => exact absurd rfl h
  | cons next rest =>
      -- Only a separator with nothing behind it is read in another way.
      rw [operands?, Located.operand?]
      · cases Operand.ofToken? token.item <;> cases operands? (next :: rest) <;> rfl
      · intro line _ hrest
        exact h hrest

theorem operands?_singleton (token : Located Token) :
    operands? [token] = if token.item = .separator then some [] else none := by
  rcases token with ⟨item, line⟩
  cases item <;> rfl

theorem length_of_operands? (tokens : List (Located Token)) (operands : List (Located Operand))
    (h : operands? tokens = some operands) : tokens.length = operands.length + 1 := by
  -- Along the tokens; the last of them must be the separator, which is no operand.
  induction tokens generalizing operands with
  | nil => exact absurd h (by simp only [operands?, reduceCtorEq, not_false_eq_true])
  | cons token rest ih =>
      by_cases hrest : rest = []
      · subst hrest
        rw [operands?_singleton] at h
        by_cases hsep : token.item = .separator
        · rw [if_pos hsep, Option.some.injEq] at h
          rw [← h]
          rfl
        · rw [if_neg hsep] at h
          exact absurd h (by simp only [reduceCtorEq, not_false_eq_true])
      · rw [operands?_cons_of_ne_nil token rest hrest] at h
        simp only [Option.bind_eq_some_iff, Option.map_eq_some_iff] at h
        rcases h with ⟨operand, _, operands', hoperands, rfl⟩
        rw [List.length_cons, ih operands' hoperands, List.length_cons]

theorem form?_eq_none_of_length (statement : Statement) (h : 5 ≤ statement.tokens.length) :
    statement.form? = none := by
  unfold form?
  split
  -- Each row of the table has three or four tokens.
  iterate 4
    rename_i htokens
    simp only [htokens, List.length_cons, List.length_nil] at h
    omega
  rfl

theorem length_of_command? (statement : Statement) (command : Command)
    (h : statement.command? = some command) : statement.tokens.length ≤ 4 := by
  unfold command? at h
  split at h
  · rename_i k line rest htokens
    -- One token for the keyword, one for each operand, and one for the separator.
    rcases Option.bind_eq_some_iff.mp h with ⟨operands, hoperands, hcommand⟩
    have hrest := length_of_operands? rest operands hoperands
    have hcount := Command.length_of_ofOperands? k operands command hcommand
    have harity : k.arity ≤ 2 := by cases k <;> simp only [Keyword.arity, Nat.reduceLeDiff, Nat.le_refl]
    rw [htokens, List.length_cons]
    omega
  · exact absurd h (by simp only [reduceCtorEq, not_false_eq_true])

/-- A statement is the command whose form it has. Too many tokens are none by
    either reading, since no keyword wants more than two operands; up to four
    are compared with the table one by one. -/
theorem command?_eq_form? (statement : Statement) : statement.command? = statement.form? := by
  by_cases hlength : statement.tokens.length ≤ 4
  · rcases statement with ⟨_ | ⟨⟨head, _⟩, rest⟩⟩
    · rfl
    · cases head with
      | literal | identifier | separator | oversized => rfl
      | keyword k =>
          -- Row by row, the kind of each token decides both readings.
          rcases rest with _ | ⟨⟨a, _⟩, _ | ⟨⟨b, _⟩, _ | ⟨⟨c, _⟩, _ | ⟨d, more⟩⟩⟩⟩
          · cases k <;> rfl
          · cases k <;> cases a <;> rfl
          · cases k <;> cases a <;> cases b <;> rfl
          · cases k <;> cases a <;> cases b <;> cases c <;> rfl
          · simp only [List.length_cons] at hlength
            omega
  · rw [form?_eq_none_of_length statement (by omega)]
    cases hcommand : statement.command? with
    | none => rfl
    | some command => exact absurd (length_of_command? statement command hcommand) hlength

/-- The operands of a command are tokens of its statement. -/
theorem exists_token_of_form? (statement : Statement) (command : Command)
    (h : statement.form? = some command) (operand : Located Operand)
    (hoperand : operand ∈ command.operands) :
    ∃ token ∈ statement.tokens, token.operand? = some operand := by
  have hunary : ∀ (token : Located Token) (make : Located Operand → Command),
      token ∈ statement.tokens → (∀ v, (make v).operands = [v]) →
      token.operand?.map make = some command →
      ∃ token ∈ statement.tokens, token.operand? = some operand := by
    intro token make htoken hmake hmap
    rcases Option.map_eq_some_iff.mp hmap with ⟨value, hvalue, rfl⟩
    rw [hmake, List.mem_singleton] at hoperand
    exact ⟨token, htoken, by rw [hoperand, hvalue]⟩
  unfold form? at h
  split at h
  -- All forms but the last have one operand, in front of the separator.
  iterate 3
    rename_i token _ htokens
    refine hunary token _ ?_ (fun _ => rfl) h
    simp only [htokens, List.mem_cons, true_or, or_true]
  · rename_i left right _ htokens
    rcases Option.bind_eq_some_iff.mp h with ⟨l, hl, hright⟩
    rcases Option.map_eq_some_iff.mp hright with ⟨r, hr, rfl⟩
    rw [htokens]
    simp only [Command.operands, List.mem_cons, List.not_mem_nil, or_false] at hoperand
    rcases hoperand with rfl | rfl
    · exact ⟨left, by simp only [List.mem_cons, true_or, or_true], hl⟩
    · exact ⟨right, by simp only [List.mem_cons, true_or, or_true], hr⟩
  · exact absurd h (by simp only [reduceCtorEq, not_false_eq_true])

theorem exists_token_of_mem_resolved (statement : Statement) (operand : Located Operand)
    (h : operand ∈ statement.resolved) :
    ∃ token ∈ statement.tokens, token.operand? = some operand := by
  unfold resolved at h
  split at h
  · rename_i command hform
    exact exists_token_of_form? statement command hform operand h
  · exact absurd h List.not_mem_nil

theorem target?_eq_some_iff (statement : Statement) (name : String) :
    statement.target? = some name ↔
      ∃ source, statement.form? = some (.bind name source) := by
  unfold target?
  cases statement.form? with
  | none => simp only [Option.bind_none, reduceCtorEq, exists_false]
  | some command =>
      -- Only a binding has a target.
      cases command with
      | bind target source =>
          simp only [Option.bind_some, Command.target?, Option.some.injEq, Command.bind.injEq,
            exists_and_left, exists_eq', and_true]
      | write operand newline =>
          simp only [Option.bind_some, Command.target?, Option.some.injEq, reduceCtorEq,
            exists_false]
      | compute op left right =>
          simp only [Option.bind_some, Command.target?, Option.some.injEq, reduceCtorEq,
            exists_false]

end Statement

end PrefixScript
