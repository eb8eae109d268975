import PrefixScript.Token.Stream

/-!
# Layouts

All the ways to write the same lexemes down.

A text is more than its lexemes: there are blanks in front of them, between them
and behind them, and there are line ends of two kinds. A layout makes these
choices, and reading a text undoes them. Blanks come in gaps, which stay on
their line. A gap between two lexemes must not be empty, or they would be one; a
gap at the edge of a line may be. A line end is a line feed, with or without a
carriage return in front of it, and the last line may do without.

Every text is a layout of some lines, and which lines these are can be read off
the text, with one exception. A text that ends in a line end may or may not have
an empty line behind it. That makes no difference to anything else, so the
tokens of a text are those of its lines, however they are laid out.

## Main definitions

* `IsGap`, `IsLexeme`: What stands between lexemes, and what they are.
* `LineBody`, `LineLayout`: The ways to write a line.
* `Layout`: The ways to write lines.
* `withCarriageReturns`: A text with the longer line ends.
* `Token.ofLexemeLines`: The tokens of lines that are given by their lexemes.

## Theorems

* `lexemes_of_lineLayout`: Reading a line gives back its lexemes.
* `isComment_of_lineLayout`: A line is a comment if its first lexeme starts like
  one.
* `lineLayout_lexemes`: Every line is a layout of its lexemes.
* `layout_lines`: Every text is a layout of its lines.
* `lines_of_layout`: A text is a layout of no other lines.
* `layout_withCarriageReturns`: The kind of line end is a choice of layout.
* `ofText_of_layout`: The tokens of a text are those of the lines it lays out.
-/

namespace PrefixScript

namespace Text

/-- Blanks that stay on their line. -/
def IsGap (gap : List Char) : Prop :=
  ∀ c ∈ gap, isBlank c = true ∧ c ≠ '\n'

/-- Some characters, none of which is blank. -/
def IsLexeme (lexeme : List Char) : Prop :=
  lexeme ≠ [] ∧ ∀ c ∈ lexeme, isBlank c = false

/-- The lexemes of a line that has some, written from the first of them to the
    end of the line. -/
inductive LineBody : List (List Char) → List Char → Prop where
  /-- Behind the last lexeme there may be a gap. -/
  | last (lexeme gap : List Char) :
      IsLexeme lexeme → IsGap gap → LineBody [lexeme] (lexeme ++ gap)
  /-- Between two lexemes there must be one. -/
  | cons (lexeme gap : List Char) (rest : List (List Char)) (body : List Char) :
      IsLexeme lexeme → IsGap gap → gap ≠ [] → LineBody rest body →
      LineBody (lexeme :: rest) (lexeme ++ gap ++ body)

/-- The lexemes of a line, written as a line. -/
inductive LineLayout : List (List Char) → List Char → Prop where
  | blank (gap : List Char) : IsGap gap → LineLayout [] gap
  | filled (gap : List Char) (lexemes : List (List Char)) (body : List Char) :
      IsGap gap → LineBody lexemes body → LineLayout lexemes (gap ++ body)

/-- What separates a line from the next. -/
def IsLineEnd (ending : List Char) : Prop :=
  ending = ['\n'] ∨ ending = ['\r', '\n']

/-- Lines, each given by its lexemes, written as a text. -/
inductive Layout : List (List (List Char)) → List Char → Prop where
  /-- Nothing is written for no lines, nor behind a line end. -/
  | nil : Layout [] []
  /-- The last line may have no line end. -/
  | last (line : List (List Char)) (text : List Char) :
      LineLayout line text → Layout [line] text
  /-- Any line may have one. -/
  | cons (line : List (List Char)) (text ending : List Char) (lines : List (List (List Char)))
      (rest : List Char) :
      LineLayout line text → IsLineEnd ending → Layout lines rest →
      Layout (line :: lines) (text ++ ending ++ rest)

/-- The text with a carriage return in front of every line feed. -/
def withCarriageReturns (text : List Char) : List Char :=
  text.flatMap fun c => if c = '\n' then ['\r', '\n'] else [c]

/-- Whether the first lexeme of a line starts with two slashes. -/
def startsComment (line : List (List Char)) : Bool :=
  match line with
  | lexeme :: _ => ['/', '/'].isPrefixOf lexeme
  | [] => false

theorem isGap_nil : IsGap [] := by
  intro c hc
  exact absurd hc List.not_mem_nil

theorem isGap_append (gap gap' : List Char) (h : IsGap gap) (h' : IsGap gap') :
    IsGap (gap ++ gap') := by
  intro c hc
  rcases List.mem_append.mp hc with hc | hc
  · exact h c hc
  · exact h' c hc

theorem isGap_carriageReturn : IsGap ['\r'] := by
  intro c hc
  rw [List.mem_singleton.mp hc]
  decide

/-! ### Reading a line -/

theorem lexemes_cons_blank (c : Char) (text : List Char) (h : isBlank c = true) :
    lexemes (c :: text) = lexemes text := by
  have hcut := lexemes_append_blank [] text c h
  rwa [List.nil_append, lexemes_nil, List.nil_append] at hcut

theorem lexemes_gap_append (gap text : List Char) (h : IsGap gap) :
    lexemes (gap ++ text) = lexemes text := by
  induction gap with
  | nil => rfl
  | cons c rest ih =>
      rw [List.cons_append, lexemes_cons_blank c _ (h c List.mem_cons_self).1]
      exact ih fun d hd => h d (List.mem_cons_of_mem c hd)

theorem lexemes_gap (gap : List Char) (h : IsGap gap) : lexemes gap = [] := by
  have hgap := lexemes_gap_append gap [] h
  rwa [List.append_nil, lexemes_nil] at hgap

theorem lexemes_of_lineBody (line : List (List Char)) (body : List Char)
    (h : LineBody line body) : lexemes body = line := by
  induction h with
  | last lexeme gap hlexeme hgap =>
      cases gap with
      | nil =>
          rw [List.append_nil]
          exact lexemes_eq_singleton lexeme hlexeme.1 hlexeme.2
      | cons c gap =>
          rw [lexemes_append_blank lexeme gap c (hgap c List.mem_cons_self).1,
            lexemes_eq_singleton lexeme hlexeme.1 hlexeme.2,
            lexemes_gap gap fun d hd => hgap d (List.mem_cons_of_mem c hd), List.append_nil]
  | cons lexeme gap rest body hlexeme hgap hne _ ih =>
      -- The first blank of the gap ends the lexeme, and the others are passed over.
      cases gap with
      | nil => exact absurd rfl hne
      | cons c gap =>
          rw [List.append_assoc, List.cons_append,
            lexemes_append_blank lexeme _ c (hgap c List.mem_cons_self).1,
            lexemes_eq_singleton lexeme hlexeme.1 hlexeme.2,
            lexemes_gap_append gap body fun d hd => hgap d (List.mem_cons_of_mem c hd), ih]
          rfl

theorem lexemes_of_lineLayout (line : List (List Char)) (text : List Char)
    (h : LineLayout line text) : lexemes text = line := by
  cases h with
  | blank _ hgap => exact lexemes_gap text hgap
  | filled gap _ body hgap hbody =>
      rw [lexemes_gap_append gap body hgap]
      exact lexemes_of_lineBody line body hbody

/-! ### Comments -/

/-- Behind a lexeme nothing comes that could belong to it, so two slashes in
    front of the rest of the line are two slashes in front of the lexeme. -/
theorem isPrefixOf_lexeme_append (lexeme rest : List Char) (hne : lexeme ≠ [])
    (hrest : ∀ c ∈ rest.head?, isBlank c = true) :
    ['/', '/'].isPrefixOf (lexeme ++ rest) = ['/', '/'].isPrefixOf lexeme := by
  rcases lexeme with _ | ⟨c, _ | ⟨d, more⟩⟩
  · exact absurd rfl hne
  · cases rest with
    | nil => rfl
    | cons e rest =>
        -- A lexeme of one slash is no comment, even with a slash further on.
        have hslash : ('/' == e) = false := by
          rw [beq_eq_false_iff_ne]
          intro he
          have hblank := hrest e rfl
          rw [← he] at hblank
          exact absurd hblank (by decide)
        simp only [List.singleton_append, List.isPrefixOf_cons_cons, hslash, Bool.false_and,
          Bool.and_false, List.isPrefixOf_cons_nil]
  · simp only [List.cons_append, List.isPrefixOf_cons_cons, List.isPrefixOf_nil_left]

theorem isPrefixOf_lineBody (line : List (List Char)) (body : List Char)
    (h : LineBody line body) : ['/', '/'].isPrefixOf body = startsComment line := by
  cases h with
  | last lexeme gap hlexeme hgap =>
      refine isPrefixOf_lexeme_append lexeme gap hlexeme.1 fun c hc => ?_
      exact (hgap c (List.mem_of_mem_head? hc)).1
  -- The slashes are searched for in the first lexeme only, since a blank follows it.
  | cons lexeme gap rest body hlexeme hgap hne _ =>
      rw [List.append_assoc]
      refine isPrefixOf_lexeme_append lexeme (gap ++ body) hlexeme.1 fun c hc => ?_
      rcases List.exists_cons_of_ne_nil hne with ⟨d, gap', rfl⟩
      rw [List.cons_append, List.head?_cons, Option.mem_some] at hc
      exact (hgap c (by rw [← hc]; exact List.mem_cons_self)).1

theorem exists_cons_of_lineBody (line : List (List Char)) (body : List Char)
    (h : LineBody line body) : ∃ c rest, body = c :: rest ∧ isBlank c = false := by
  -- Either way the line starts with a lexeme.
  have hfirst : ∀ lexeme tail : List Char, IsLexeme lexeme →
      ∃ c rest, lexeme ++ tail = c :: rest ∧ isBlank c = false := by
    intro lexeme tail hlexeme
    rcases List.exists_cons_of_ne_nil hlexeme.1 with ⟨c, rest, rfl⟩
    exact ⟨c, rest ++ tail, rfl, hlexeme.2 c List.mem_cons_self⟩
  cases h with
  | last lexeme gap hlexeme _ => exact hfirst lexeme gap hlexeme
  | cons lexeme gap rest body hlexeme _ _ _ =>
      rw [List.append_assoc]
      exact hfirst lexeme (gap ++ body) hlexeme

theorem dropWhile_gap_append (gap text : List Char) (h : IsGap gap) :
    (gap ++ text).dropWhile isBlank = text.dropWhile isBlank := by
  induction gap with
  | nil => rfl
  | cons c rest ih =>
      rw [List.cons_append, List.dropWhile_cons_of_pos (h c List.mem_cons_self).1]
      exact ih fun d hd => h d (List.mem_cons_of_mem c hd)

theorem isComment_of_lineLayout (line : List (List Char)) (text : List Char)
    (h : LineLayout line text) : isComment text = startsComment line := by
  cases h with
  | blank _ hgap =>
      have hdrop := dropWhile_gap_append text [] hgap
      rw [List.append_nil] at hdrop
      rw [isComment, hdrop]
      rfl
  | filled gap _ body hgap hbody =>
      rcases exists_cons_of_lineBody line body hbody with ⟨c, rest, hcons, hc⟩
      -- A lexeme does not begin with a blank, so only the gap in front is dropped.
      have hdrop : body.dropWhile isBlank = body := by
        rw [hcons]
        exact List.dropWhile_cons_of_neg (by rw [hc]; exact Bool.false_ne_true)
      rw [isComment, dropWhile_gap_append gap body hgap, hdrop]
      exact isPrefixOf_lineBody line body hbody

/-! ### Every line is a layout -/

theorem isGap_cons (c : Char) (gap : List Char) (hc : isBlank c = true ∧ c ≠ '\n')
    (h : IsGap gap) : IsGap (c :: gap) := by
  intro d hd
  rcases List.mem_cons.mp hd with rfl | hd
  · exact hc
  · exact h d hd

theorem lineLayout_cons_blank (c : Char) (line : List (List Char)) (text : List Char)
    (hc : isBlank c = true ∧ c ≠ '\n') (h : LineLayout line text) :
    LineLayout line (c :: text) := by
  cases h with
  | blank _ hgap => exact .blank _ (isGap_cons c text hc hgap)
  | filled gap _ body hgap hbody =>
      exact .filled (c :: gap) line body (isGap_cons c gap hc hgap) hbody

/-- A character that is not blank makes a lexeme of its own in front of a gap,
    and becomes part of the lexeme it touches otherwise. -/
theorem lineLayout_cons_of_not_blank (c : Char) (line : List (List Char)) (text : List Char)
    (hc : isBlank c = false) (h : LineLayout line text) :
    ∃ line', LineLayout line' (c :: text) := by
  have hsingle : IsLexeme [c] := by
    refine ⟨List.cons_ne_nil c [], fun d hd => ?_⟩
    rw [List.mem_singleton.mp hd]
    exact hc
  have hgrow : ∀ lexeme : List Char, IsLexeme lexeme → IsLexeme (c :: lexeme) := by
    intro lexeme hlexeme
    refine ⟨List.cons_ne_nil c lexeme, fun d hd => ?_⟩
    rcases List.mem_cons.mp hd with rfl | hd
    · exact hc
    · exact hlexeme.2 d hd
  cases h with
  | blank _ hgap =>
      exact ⟨[[c]], .filled [] [[c]] (c :: text) isGap_nil (.last [c] text hsingle hgap)⟩
  | filled gap _ body hgap hbody =>
      cases gap with
      | cons d gap =>
          -- The gap in front of the line comes to stand behind the character.
          exact ⟨[c] :: line, .filled [] _ (c :: (d :: gap ++ body)) isGap_nil
            (.cons [c] (d :: gap) line body hsingle hgap (List.cons_ne_nil d gap) hbody)⟩
      | nil =>
          -- Without a gap the character touches the first lexeme.
          cases hbody with
          | last lexeme gap hlexeme hgap =>
              exact ⟨[c :: lexeme], .filled [] _ (c :: (lexeme ++ gap)) isGap_nil
                (.last (c :: lexeme) gap (hgrow lexeme hlexeme) hgap)⟩
          | cons lexeme gap rest body hlexeme hgap hne hrest =>
              exact ⟨(c :: lexeme) :: rest, .filled [] _ (c :: (lexeme ++ gap ++ body)) isGap_nil
                (.cons (c :: lexeme) gap rest body (hgrow lexeme hlexeme) hgap hne hrest)⟩

/-- Every line is a layout of its lexemes. -/
theorem lineLayout_lexemes (text : List Char) (h : '\n' ∉ text) :
    LineLayout (lexemes text) text := by
  -- It is enough that it is a layout at all: its lexemes are then read off it.
  have hsome : ∃ line, LineLayout line text := by
    induction text with
    | nil => exact ⟨[], .blank [] isGap_nil⟩
    | cons c rest ih =>
        rw [List.mem_cons, not_or] at h
        rcases ih h.2 with ⟨line, hline⟩
        cases hc : isBlank c with
        | true => exact ⟨line, lineLayout_cons_blank c line rest ⟨hc, fun hn => h.1 hn.symm⟩ hline⟩
        | false => exact lineLayout_cons_of_not_blank c line rest hc hline
  rcases hsome with ⟨line, hline⟩
  rw [lexemes_of_lineLayout line text hline]
  exact hline

theorem newline_not_mem_of_isGap (gap : List Char) (h : IsGap gap) : '\n' ∉ gap :=
  fun hn => (h '\n' hn).2 rfl

theorem newline_not_mem_of_isLexeme (lexeme : List Char) (h : IsLexeme lexeme) :
    '\n' ∉ lexeme :=
  fun hn => absurd (h.2 '\n' hn) (by decide)

theorem newline_not_mem_of_lineBody (line : List (List Char)) (body : List Char)
    (h : LineBody line body) : '\n' ∉ body := by
  induction h with
  | last lexeme gap hlexeme hgap =>
      rw [List.mem_append, not_or]
      exact ⟨newline_not_mem_of_isLexeme lexeme hlexeme, newline_not_mem_of_isGap gap hgap⟩
  | cons lexeme gap rest body hlexeme hgap _ _ ih =>
      rw [List.mem_append, List.mem_append, not_or, not_or]
      exact ⟨⟨newline_not_mem_of_isLexeme lexeme hlexeme, newline_not_mem_of_isGap gap hgap⟩, ih⟩

theorem newline_not_mem_of_lineLayout (line : List (List Char)) (text : List Char)
    (h : LineLayout line text) : '\n' ∉ text := by
  cases h with
  | blank _ hgap => exact newline_not_mem_of_isGap text hgap
  | filled gap _ body hgap hbody =>
      rw [List.mem_append, not_or]
      exact ⟨newline_not_mem_of_isGap gap hgap, newline_not_mem_of_lineBody line body hbody⟩

theorem lineBody_append_gap (line : List (List Char)) (body gap : List Char)
    (h : LineBody line body) (hgap : IsGap gap) : LineBody line (body ++ gap) := by
  induction h with
  | last lexeme trail hlexeme htrail =>
      rw [List.append_assoc]
      exact .last lexeme (trail ++ gap) hlexeme (isGap_append trail gap htrail hgap)
  | cons lexeme between rest body hlexeme hbetween hne _ ih =>
      rw [List.append_assoc]
      exact .cons lexeme between rest (body ++ gap) hlexeme hbetween hne ih

/-- The last gap of a line may grow, as it does when the carriage return of a
    line end is taken for a part of the line. -/
theorem lineLayout_append_gap (line : List (List Char)) (text gap : List Char)
    (h : LineLayout line text) (hgap : IsGap gap) : LineLayout line (text ++ gap) := by
  cases h with
  | blank _ hblank => exact .blank _ (isGap_append text gap hblank hgap)
  | filled lead _ body hlead hbody =>
      rw [List.append_assoc]
      exact .filled lead line (body ++ gap) hlead (lineBody_append_gap line body gap hbody hgap)

/-! ### Lines -/

theorem lines_of_newline_not_mem (text : List Char) (h : '\n' ∉ text) : lines text = [text] :=
  List.splitOn_eq_singleton h

/-- The first line of a layout, whatever its line end, and the rest. A carriage
    return goes to the line, which lays out the same lexemes with it. -/
theorem exists_lines_cons (line : List (List Char)) (text ending rest : List Char)
    (h : LineLayout line text) (hending : IsLineEnd ending) :
    ∃ text', LineLayout line text' ∧ lines (text ++ ending ++ rest) = text' :: lines rest := by
  rcases hending with rfl | rfl
  · refine ⟨text, h, ?_⟩
    rw [List.append_assoc, List.singleton_append, lines_append_newline,
      lines_of_newline_not_mem text (newline_not_mem_of_lineLayout line text h)]
    rfl
  · -- The line feed ends the line, so the carriage return is still part of it.
    have h' := lineLayout_append_gap line text ['\r'] h isGap_carriageReturn
    refine ⟨text ++ ['\r'], h', ?_⟩
    rw [show text ++ ['\r', '\n'] ++ rest = (text ++ ['\r']) ++ '\n' :: rest by
        simp only [List.append_assoc, List.cons_append, List.nil_append],
      lines_append_newline,
      lines_of_newline_not_mem _ (newline_not_mem_of_lineLayout line _ h')]
    rfl

/-- A text is a layout of its own lines only, give or take the empty line behind
    a line end. -/
theorem lines_of_layout (lines' : List (List (List Char))) (text : List Char)
    (h : Layout lines' text) :
    lines' = (lines text).map lexemes ∨ (lines text).map lexemes = lines' ++ [[]] := by
  induction h with
  | nil => exact Or.inr rfl
  | last line text hline =>
      refine Or.inl ?_
      rw [lines_of_newline_not_mem text (newline_not_mem_of_lineLayout line text hline),
        List.map_singleton, lexemes_of_lineLayout line text hline]
  | cons line text ending rest' rest hline hending _ ih =>
      -- Behind the first line end the rest may be short of an empty line.
      rcases exists_lines_cons line text ending rest hline hending with ⟨text', hline', hlines⟩
      rw [hlines, List.map_cons, lexemes_of_lineLayout line text' hline']
      rcases ih with ih | ih
      · exact Or.inl (congrArg (List.cons line) ih)
      · exact Or.inr (congrArg (List.cons line) ih)

/-- Every text is a layout of its lines. -/
theorem layout_lines (text : List Char) : Layout ((lines text).map lexemes) text := by
  induction hn : text.length using Nat.strongRecOn generalizing text with
  | ind n ih =>
    by_cases hmem : '\n' ∈ text
    · -- Cut at the first line feed; what is behind it is shorter.
      rcases List.eq_append_cons_of_mem hmem with ⟨first, rest, hsplit, hfirst⟩
      have hrest := ih rest.length (by
        rw [← hn, hsplit, List.length_append, List.length_cons]
        omega) rest rfl
      rw [hsplit, lines_append_newline, lines_of_newline_not_mem first hfirst,
        List.singleton_append, List.map_cons,
        show first ++ '\n' :: rest = first ++ ['\n'] ++ rest by
          simp only [List.append_assoc, List.cons_append, List.nil_append]]
      exact .cons _ first ['\n'] _ rest (lineLayout_lexemes first hfirst) (Or.inl rfl) hrest
    · rw [lines_of_newline_not_mem text hmem, List.map_singleton]
      exact .last _ text (lineLayout_lexemes text hmem)

theorem withCarriageReturns_append (before after : List Char) :
    withCarriageReturns (before ++ after) =
      withCarriageReturns before ++ withCarriageReturns after :=
  List.flatMap_append

theorem withCarriageReturns_of_newline_not_mem (text : List Char) (h : '\n' ∉ text) :
    withCarriageReturns text = text := by
  induction text with
  | nil => rfl
  | cons c rest ih =>
      rw [List.mem_cons, not_or] at h
      -- Only a line feed is given a carriage return.
      rw [withCarriageReturns, List.flatMap_cons, if_neg fun hc => h.1 hc.symm]
      exact congrArg (List.cons c) (ih h.2)

/-- The kind of line end is a choice of layout. A carriage return that is there
    already becomes a gap in front of the new one. -/
theorem layout_withCarriageReturns (lines' : List (List (List Char))) (text : List Char)
    (h : Layout lines' text) : Layout lines' (withCarriageReturns text) := by
  induction h with
  | nil => exact .nil
  | last line text hline =>
      rw [withCarriageReturns_of_newline_not_mem text
        (newline_not_mem_of_lineLayout line text hline)]
      exact .last line text hline
  | cons line text ending rest' rest hline hending _ ih =>
      rw [withCarriageReturns_append, withCarriageReturns_append,
        withCarriageReturns_of_newline_not_mem text
          (newline_not_mem_of_lineLayout line text hline)]
      rcases hending with rfl | rfl
      -- A line feed alone gets its carriage return; behind one there are two.
      · exact .cons line text ['\r', '\n'] rest' _ hline (Or.inr rfl) ih
      · rw [show text ++ withCarriageReturns ['\r', '\n'] =
          (text ++ ['\r']) ++ ['\r', '\n'] by rw [List.append_assoc]; rfl]
        exact .cons line (text ++ ['\r']) ['\r', '\n'] rest' _
          (lineLayout_append_gap line text ['\r'] hline isGap_carriageReturn) (Or.inr rfl) ih

end Text

namespace Token

/-- The tokens of one line that is given by its lexemes. -/
def ofLexemeLine (number : Nat) (line : List (List Char)) : List (Located Token) :=
  if Text.startsComment line then []
  else line.filterMap fun lexeme => (ofLexeme? lexeme).map fun token => ⟨token, number⟩

/-- The tokens of consecutive lines that are given by their lexemes, the first of
    which has number `start`. -/
def ofLexemeLines (start : Nat) (lines : List (List (List Char))) : List (Located Token) :=
  (lines.zipIdx start).flatMap fun (line, number) => ofLexemeLine number line

theorem ofLexemeLines_cons (start : Nat) (line : List (List Char))
    (lines : List (List (List Char))) :
    ofLexemeLines start (line :: lines) =
      ofLexemeLine start line ++ ofLexemeLines (start + 1) lines := rfl

theorem ofLine_of_lineLayout (number : Nat) (line : List (List Char)) (text : List Char)
    (h : Text.LineLayout line text) : ofLine number text = ofLexemeLine number line := by
  rw [ofLine, Text.isComment_of_lineLayout line text h, Text.lexemes_of_lineLayout line text h]
  rfl

theorem ofLines_of_layout (start : Nat) (lines : List (List (List Char))) (text : List Char)
    (h : Text.Layout lines text) :
    ofLines start (Text.lines text) = ofLexemeLines start lines := by
  induction h generalizing start with
  | nil => rfl
  | last line text hline =>
      rw [Text.lines_of_newline_not_mem text (Text.newline_not_mem_of_lineLayout line text hline),
        ofLines_cons, ofLexemeLines_cons, ofLine_of_lineLayout start line text hline]
      rfl
  | cons line text ending lines rest hline hending _ ih =>
      -- The first line is split off, with a carriage return left in it if there was one.
      rcases Text.exists_lines_cons line text ending rest hline hending with ⟨text', hline', hlines⟩
      rw [hlines, ofLines_cons, ofLexemeLines_cons, ofLine_of_lineLayout start line text' hline',
        ih (start + 1)]

/-- The tokens of a text are those of the lines it lays out, whatever the layout.
    Every text is a layout of its lines and of no others, but for an empty line
    behind the last line end, so neither the kind of line end nor the blanks
    around lexemes make a difference. -/
theorem ofText_of_layout :
    (∀ lines text, Text.Layout lines text →
      ofText (String.ofList text) = ofLexemeLines 1 lines) ∧
    (∀ source : String, ∃ lines, Text.Layout lines source.toList ∧
      ∀ other, Text.Layout other source.toList → other = lines ∨ lines = other ++ [[]]) ∧
    (∀ source : String,
      ofText (String.ofList (Text.withCarriageReturns source.toList)) = ofText source) ∧
    (∀ lines text text', Text.Layout lines text → Text.Layout lines text' →
      ofText (String.ofList text) = ofText (String.ofList text')) := by
  have hread : ∀ lines text, Text.Layout lines text →
      ofText (String.ofList text) = ofLexemeLines 1 lines := by
    intro lines text h
    rw [ofText, String.toList_ofList]
    exact ofLines_of_layout 1 lines text h
  refine ⟨hread, fun source => ?_, fun source => ?_, fun lines text text' h h' => ?_⟩
  · exact ⟨_, Text.layout_lines source.toList, fun other hother =>
      Text.lines_of_layout other source.toList hother⟩
  · -- Every text has a layout, and it stays one with the carriage returns.
    have hlayout := Text.layout_lines source.toList
    rw [hread _ _ (Text.layout_withCarriageReturns _ _ hlayout), ← hread _ _ hlayout,
      String.ofList_toList]
  · rw [hread lines text h, hread lines text' h']

end Token

end PrefixScript
