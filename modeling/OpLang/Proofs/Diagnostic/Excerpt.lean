/-
**What an excerpt points at.**

The last two lines of an excerpt are a line of the text behind its number, and a caret below it
(`Diagnostic.EndsIn`). Where a diagnostic stands between `front` and `back` (`Diagnostic.StandsBetween`),
that line is the one around this place, and the caret stands below the first character of `back`, unless
`back` is empty.

* `Diagnostic.excerpt_endsIn`: the two lines for any place in a text. Both start with a gutter of one
  width, and what is left of the caret's column are the characters between indentation and offset
  (`Diagnostic.caretColumn_append`).
* `Source.Reports.standsBetween`: a diagnostic that is reported on a source stands before a token or a
  character that it quotes, or at the end.
* `Diagnostic.getElem?_underline`: what is quoted begins with no blank, so neither taking off the
  indentation nor trimming the end of the line reaches it.
-/

import OpLang.Diagnostic.Excerpt
import OpLang.Proofs.Program.Positions
import OpLang.Proofs.Text.Line
import OpLang.Proofs.Text.Trim
import OpLang.Proofs.Token.Acceptance

namespace OpLang

open Text (byteLength)

/-! ### Cutting -/

namespace Text

/-- Taking as many bytes as the first part has gives the first part. -/
theorem takeBytes?_append (first second : List Char) :
    takeBytes? (byteLength first) (first ++ second) = some first := by
  induction first with
  | nil => cases second <;> rfl
  | cons c rest ih =>
    have positive := c.utf8Size_pos
    obtain ⟨count, equal⟩ : ∃ count, c.utf8Size + byteLength rest = count + 1 :=
      ⟨c.utf8Size + byteLength rest - 1, by omega⟩
    have fits : c.utf8Size ≤ count + 1 := by omega
    have left : count + 1 - c.utf8Size = byteLength rest := by omega
    simp [equal, takeBytes?, fits, left, ih]

end Text

/-! ### The two lines of an excerpt -/

namespace Diagnostic

/-- Indentation is blank. -/
theorem isBlank_of_isIndent {c : Char} (indents : isIndent c = true) : Text.isBlank c = true := by
  rcases Bool.or_eq_true_iff.mp indents with space | tab
  · rw [beq_iff_eq.mp space]
    decide
  · rw [beq_iff_eq.mp tab]
    decide

/-- The indentation of a line up to a place in it. -/
theorem min_indent (front back : List Char) :
    min (byteLength ((front ++ back).takeWhile isIndent)) (byteLength front) =
      byteLength (front.takeWhile isIndent) := by
  induction front with
  | nil => exact Nat.min_zero _
  | cons c front ih =>
    by_cases indents : isIndent c = true
    · rw [List.cons_append, List.takeWhile_cons_of_pos indents, List.takeWhile_cons_of_pos indents]
      simp only [Text.byteLength_cons]
      rw [Nat.add_min_add_left, ih]
    · rw [List.cons_append, List.takeWhile_cons_of_neg indents, List.takeWhile_cons_of_neg indents]
      exact Nat.zero_min _

/-- **The caret's column** counts the characters between the indentation and the offset. -/
theorem caretColumn_append (front back : List Char) :
    caretColumn (front ++ back) (byteLength front) = (front.dropWhile isIndent).length := by
  have split := List.takeWhile_append_dropWhile (p := isIndent) (l := front)
  have rest : byteLength front - byteLength (front.takeWhile isIndent) =
      byteLength (front.dropWhile isIndent) := by
    have size := congrArg byteLength split
    rw [Text.byteLength_append] at size
    omega
  have dropped : Text.dropBytes? (byteLength (front.takeWhile isIndent)) (front ++ back) =
      some (front.dropWhile isIndent ++ back) := by
    have dropped := Text.dropBytes?_append (front.takeWhile isIndent)
      (front.dropWhile isIndent ++ back)
    rw [← List.append_assoc, split] at dropped
    exact dropped
  unfold caretColumn
  simp only [min_indent, rest, dropped, Option.bind_some, Text.takeBytes?_append]

/-- What is shown of a line: neither its indentation nor blanks at its end. -/
def shown (line : List Char) : List Char := Text.trimEnd (line.dropWhile isIndent)

/-- The newline of a line is not shown. -/
theorem shown_take_newline {later : List Char} (stops : ∀ c ∈ later.head?, c = '\n')
    (line : List Char) : shown (line ++ later.take 1) = shown line := by
  cases later with
  | nil => simp
  | cons c later =>
    obtain rfl := stops c rfl
    unfold shown
    rw [List.take_succ_cons, List.take_zero, Text.dropWhile_append_cons rfl]
    exact Text.trimEnd_append_blank (by decide) _

/-- **Where no blank stands, the line is shown from its indentation on** up to there and further. -/
theorem shown_append {c : Char} (graphic : Text.isBlank c = false) (front back : List Char) :
    shown (front ++ c :: back) = front.dropWhile isIndent ++ c :: Text.trimEnd back := by
  have stops : isIndent c = false := by
    by_contra indents
    rw [isBlank_of_isIndent (by simpa using indents)] at graphic
    cases graphic
  unfold shown
  rw [Text.dropWhile_append_cons stops, Text.trimEnd_append_of_not_blank graphic]

/-- What is shown of a line stands in it. -/
theorem mem_of_mem_shown {c : Char} {line : List Char} (member : c ∈ shown line) : c ∈ line :=
  (List.dropWhile_suffix _).subset ((Text.trimEnd_isPrefix _).subset member)

/-- Whether the last two lines of an excerpt are `upper`, and `lower` with a caret behind it. -/
structure EndsIn (excerpt : String) (upper lower : List Char) : Prop where
  whole : ∃ front, excerpt.toList = front ++ '\n' :: (upper ++ '\n' :: (lower ++ ['^', '\n']))
  upper_inside : '\n' ∉ upper
  lower_inside : '\n' ∉ lower

/-- The number of a line and the bar behind it. -/
def gutter (number : Nat) : List Char := (toString number ++ " | ").toList

/-- What stands before a caret in the line below. -/
def underline (number column : Nat) : List Char :=
  (repeated ((toString number).length + 1) ' ' ++ "| " ++ repeated column '-').toList

/-- The gutters of both lines have one width. -/
theorem length_underline (number column : Nat) :
    (underline number column).length = (gutter number).length + column := by
  unfold underline gutter repeated
  simp only [String.length_toList, String.length_append, String.length_ofList,
    List.length_replicate]
  have bar : " | ".length = "| ".length + 1 := by decide
  omega

/-- **The caret is below the character at its place** in the line, unless that is blank. -/
theorem getElem?_underline {c : Char} (graphic : Text.isBlank c = false) (number : Nat)
    (front back : List Char) :
    (gutter number ++ shown (front ++ c :: back))[
      (underline number (front.dropWhile isIndent).length).length]? = some c := by
  rw [length_underline, shown_append graphic, ← List.append_assoc, ← List.length_append,
    List.getElem?_append_right (Nat.le_refl _), Nat.sub_self]
  rfl

/-- At the end of a line the caret is behind what is shown. -/
theorem length_le_underline (number : Nat) (line : List Char) :
    (gutter number ++ shown line).length ≤
      (underline number (line.dropWhile isIndent).length).length := by
  rw [length_underline, List.length_append]
  exact Nat.add_le_add_left (Text.trimEnd_isPrefix _).length_le _

theorem newline_not_mem_gutter (number : Nat) : '\n' ∉ gutter number := by
  intro member
  simp only [gutter, Nat.toString_eq_repr, String.toList_append, Nat.toList_repr,
    List.mem_append] at member
  rcases member with digit | bar
  · exact absurd (Nat.isDigit_of_mem_toDigits (by decide) (by decide) digit) (by decide)
  · exact absurd bar (by decide)

/-- **The last two lines of an excerpt** for any place in a text. -/
theorem excerpt_endsIn {diagnostic : Diagnostic} {text : String}
    {earlier before behind later : List Char}
    (parts : Text.InLine text.toList earlier before behind later)
    (here : diagnostic.position.offset.toNat = byteLength (earlier ++ before)) :
    EndsIn (diagnostic.excerpt text)
      (gutter (earlier.count '\n' + 1) ++ shown (before ++ behind))
      (underline (earlier.count '\n' + 1) (before.dropWhile isIndent).length) := by
  have located := Text.locate_of_inLine parts
  rw [← here] at located
  have column := caretColumn_append before (behind ++ later.take 1)
  rw [← List.append_assoc] at column
  have line := shown_take_newline parts.stops (before ++ behind)
  generalize earlier.count '\n' + 1 = number at located ⊢
  refine ⟨?_, ?_, ?_⟩
  · refine ⟨(diagnostic.title ++ "\n" ++ "-> " ++ diagnostic.position.source ++ "\n" ++
      (repeated ((toString number).length + 1) ' ' ++ "|")).toList, ?_⟩
    unfold shown at line
    unfold excerpt
    simp only [located, column, line]
    simp only [underline, gutter, shown, String.toList_append, String.toList_ofList,
      String.reduceToList, List.append_assoc, List.cons_append, List.nil_append]
  · intro member
    rcases List.mem_append.mp member with front | inLine
    · exact newline_not_mem_gutter number front
    · have inside := mem_of_mem_shown inLine
      exact (List.mem_append.mp inside).elim parts.before_inside parts.behind_inside
  · simp [underline, repeated]

end Diagnostic

/-! ### Diagnostics of a source -/

/-- **Whether a diagnostic is reported on a source:** when its tokens are read or when they are parsed. -/
inductive Source.Reports (source : Source) (table : PrecedenceTable) (diagnostic : Diagnostic) :
    Prop where
  | lexed (refused : Token.tokenize source = .error diagnostic)
  | parsed {tokens : List Token} (lexed : Token.tokenize source = .ok tokens)
      (member : diagnostic ∈ (Run.ofTokens (.ofTable table) tokens).diagnostics)

/-- **Whether a diagnostic stands between two parts of a source.** Unless the second one is empty, what
is quoted stands at its start, and that begins with no blank. If the source has tokens, one that starts
there is quoted. -/
structure Diagnostic.StandsBetween (diagnostic : Diagnostic) (source : Source)
    (front back : List Char) : Prop where
  whole : source.text.toList = front ++ back
  here : diagnostic.position.offset.toNat = byteLength front
  quotes : back ≠ [] → ∃ c others, diagnostic.cause.quotes.toList = c :: others ∧
    c :: others <+: back ∧ Text.isBlank c = false
  token : ∀ tokens, Token.tokenize source = .ok tokens →
    ∃ token ∈ tokens, token.start = diagnostic.position ∧ token.value = diagnostic.cause.quotes

section Reports

variable {source : Source} {table : PrecedenceTable} {diagnostic : Diagnostic}

/-- The first offender of a source is quoted where it stands. -/
theorem standsBetween_of_refused (fits : source.text.utf8ByteSize < 2 ^ 32)
    (refused : Token.tokenize source = .error diagnostic) :
    ∃ front back, diagnostic.StandsBetween source front back := by
  rcases Token.tokenize_or_offender source with ⟨⟨_, lexed⟩, _⟩ | ⟨before, c, offends, reported⟩
  · rw [refused] at lexed
    cases lexed
  · rw [refused] at reported
    obtain rfl := Except.error.inj reported
    obtain ⟨after, whole⟩ := offends.stands
    have here := (Source.offsets_of_parts fits (show _ = before ++ ([c] ++ after) from whole)).1
    have notBlank : Text.isBlank c = false := by
      by_contra white
      have readable := isReadable_of_isBlank (by simpa using white)
      rw [offends.unreadable] at readable
      cases readable
    refine ⟨before, c :: after, whole, here, fun _ => ⟨c, [], ?_, ⟨after, rfl⟩, notBlank⟩, ?_⟩
    · exact String.toList_singleton c
    · intro tokens lexed
      rw [refused] at lexed
      cases lexed

/-- A diagnostic of the run of the tokens of a source stands where one of them starts. -/
theorem standsBetween_of_parsed {tokens : List Token} (fits : source.text.utf8ByteSize < 2 ^ 32)
    (lexed : Token.tokenize source = .ok tokens)
    (member : diagnostic ∈ (Run.ofTokens (.ofTable table) tokens).diagnostics) :
    ∃ front back, diagnostic.StandsBetween source front back := by
  have tiles := tiles_of_tokenize lexed
  have along := Run.raisedAlong (.ofTable table) (ParseState.ofTokens tokens)
  rw [tiles.upcoming_ofTokens] at along
  obtain ⟨token, inside, raised⟩ := along.exists_token diagnostic member
  have position : diagnostic.position = token.start := congrArg Diagnostic.position raised
  have quotes : diagnostic.cause.quotes = token.value := by
    rw [raised]
    exact diagnostic.quotes_raisedAt token
  have offending : ∀ others, Token.tokenize source = .ok others →
      ∃ token ∈ others, token.start = diagnostic.position ∧ token.value = diagnostic.cause.quotes := by
    intro others lexed'
    rw [lexed] at lexed'
    obtain rfl := Except.ok.inj lexed'
    exact ⟨token, inside, position.symm, quotes.symm⟩
  obtain ⟨lexemes, stop, rfl, atEnd, each⟩ :=
    (tiles.isTilingFrom fits (List.nil_append _).symm rfl).lexemes
  rcases List.mem_append.mp inside with lexeme | ends
  · obtain ⟨_, isLexeme⟩ := each token lexeme
    obtain ⟨rest, _, before, whole, start, _⟩ := isLexeme.stands
    refine ⟨before, token.value.toList ++ rest, whole, ?_, fun _ => ?_, offending⟩
    · rw [position]
      exact start.symm
    · obtain ⟨c, others, value⟩ := List.exists_cons_of_ne_nil isLexeme.spells.ne_nil
      obtain ⟨_, notBlank, _⟩ := isLexeme.spells.readable c (by rw [value]; exact List.mem_cons_self)
      exact ⟨c, others, by rw [quotes, value], by rw [value]; exact List.prefix_append _ _, notBlank⟩
  · obtain rfl := List.mem_singleton.mp ends
    refine ⟨source.text.toList, [], (List.append_nil _).symm, ?_, fun more => absurd rfl more, offending⟩
    rw [position, Text.byteLength_toList]
    exact atEnd

/-- **A diagnostic that is reported stands in its source.** -/
theorem Source.Reports.standsBetween (reports : source.Reports table diagnostic)
    (fits : source.text.utf8ByteSize < 2 ^ 32) :
    ∃ front back, diagnostic.StandsBetween source front back := by
  cases reports with
  | lexed refused => exact standsBetween_of_refused fits refused
  | parsed lexed member => exact standsBetween_of_parsed fits lexed member

/-- **Whether the excerpt of a diagnostic points at where it stands.** The diagnostic stands between
`before` and `behind` in a line of the source. The last two lines of the excerpt show this line behind
its number, and a caret as many columns behind the start of what is shown as there are characters
between the indentation and the diagnostic. -/
structure Diagnostic.Points (diagnostic : Diagnostic) (source : Source)
    (earlier before behind later upper lower : List Char) : Prop where
  parts : Text.InLine source.text.toList earlier before behind later
  here : diagnostic.position.offset.toNat = byteLength (earlier ++ before)
  line : upper = gutter ((earlier ++ before).count '\n' + 1) ++ shown (before ++ behind)
  lines : EndsIn (diagnostic.excerpt source.text) upper lower
  column : lower.length = (gutter ((earlier ++ before).count '\n' + 1)).length +
    (before.dropWhile isIndent).length
  /-- Before the end of the source, the caret is below the first character of what is quoted. -/
  above : diagnostic.position.offset.toNat < source.text.utf8ByteSize →
    ∃ c others, diagnostic.cause.quotes.toList = c :: others ∧ c :: others <+: behind ++ later ∧
      upper[lower.length]? = some c
  /-- At the end, the caret is behind what is shown. -/
  atEnd : diagnostic.position.offset.toNat = source.text.utf8ByteSize → upper.length ≤ lower.length
  /-- What is quoted is a token that starts there, if the source has tokens. -/
  token : ∀ tokens, Token.tokenize source = .ok tokens →
    ∃ token ∈ tokens, token.start = diagnostic.position ∧ token.value = diagnostic.cause.quotes

/-- **The excerpt of a diagnostic that is reported points at where it stands.** -/
theorem Source.Reports.excerpt_points (reports : source.Reports table diagnostic)
    (fits : source.text.utf8ByteSize < 2 ^ 32) :
    ∃ earlier before behind later upper lower,
      diagnostic.Points source earlier before behind later upper lower := by
  obtain ⟨front, back, whole, here, quotes, token⟩ := reports.standsBetween fits
  obtain ⟨earlier, before, behind, later, parts, rfl, rfl⟩ := Text.exists_inLine front back
  rw [← whole] at parts
  have size := Text.byteLength_toList source.text
  rw [whole, Text.byteLength_append, ← here] at size
  have number : (earlier ++ before).count '\n' = earlier.count '\n' := by
    rw [List.count_append, List.count_eq_zero.mpr parts.before_inside, Nat.add_zero]
  refine ⟨earlier, before, behind, later, _,
    Diagnostic.underline (earlier.count '\n' + 1) (before.dropWhile Diagnostic.isIndent).length,
    parts, here, rfl, ?_, ?_, fun inside => ?_, fun atEnd => ?_, token⟩
  · rw [number]
    exact Diagnostic.excerpt_endsIn parts here
  · rw [number]
    exact Diagnostic.length_underline _ _
  · have more : behind ++ later ≠ [] := by
      intro nothing
      rw [nothing, Text.byteLength_nil] at size
      omega
    obtain ⟨c, others, quoted, begins, notBlank⟩ := quotes more
    refine ⟨c, others, quoted, begins, ?_⟩
    cases behind with
    | nil =>
      -- The line would be over here, but what is quoted begins with no newline.
      obtain ⟨rest, same⟩ := begins
      obtain rfl := parts.stops c (by rw [← List.nil_append later, ← same]; rfl)
      cases notBlank
    | cons d behind =>
      obtain ⟨rfl, _⟩ := List.cons_prefix_cons.mp begins
      rw [number]
      exact Diagnostic.getElem?_underline notBlank _ before behind
  · have nothing : behind ++ later = [] := Text.byteLength_eq_zero.mp (by omega)
    obtain ⟨rfl, rfl⟩ := List.append_eq_nil_iff.mp nothing
    rw [number, List.append_nil]
    exact Diagnostic.length_le_underline _ before

end Reports

/-- A parenthesis that closes nothing, behind a line with a character of two bytes, a tab and a blank of
two bytes that is no indentation. -/
def unopened : Source := ⟨"#\u00e9\n\t\u00a0)", "note.k"⟩

theorem excerpt_points_unopened :
    ∃ diagnostic earlier before behind later upper lower,
      unopened.text.utf8ByteSize < 2 ^ 32 ∧ unopened.Reports .empty diagnostic ∧
      diagnostic.Points unopened earlier before behind later upper lower ∧
      diagnostic.position.offset = 7 ∧ diagnostic.excerpt unopened.text =
        "Error: UnexpectedToken (Unexpected token: `)`, expected a number, identifier or `(`)\n" ++
          "-> note.k\n  |\n2 | \u00a0)\n  | -^\n" := by
  have pieces : Lexeme.pieces unopened.text.toList =
      ([⟨.comment, "#\u00e9".toList⟩, ⟨.blank, "\n\t\u00a0".toList⟩, ⟨.closeParen, [')']⟩], []) := by
    cbv
  let tokens : List Token := [⟨.closeParen, ")", .ofNat 7 1 "note.k"⟩, .atEnd (.ofNat 8 "note.k")]
  have lexed : Token.tokenize unopened = .ok tokens := by
    rw [tokenize_of_pieces pieces]
    rfl
  let start := ParseState.ofTokens tokens
  have noGroup : Parser.item (.ofTable .empty) start =
      .failed ⟨.noExpression ")", .ofNat 7 "note.k"⟩ start [.descend start] := by cbv
  have run : Run.ofTokens (.ofTable .empty) tokens = _ :=
    Run.startingAt_of_failed (by decide) (by decide) noGroup
  rw [Run.startingAt_of_eof rfl] at run
  have reports : unopened.Reports .empty ⟨.noExpression ")", .ofNat 7 "note.k"⟩ := by
    refine .parsed lexed ?_
    rw [run]
    exact List.mem_cons_self
  have fits : unopened.text.utf8ByteSize < 2 ^ 32 := by decide
  obtain ⟨earlier, before, behind, later, upper, lower, points⟩ := reports.excerpt_points fits
  exact ⟨_, earlier, before, behind, later, upper, lower, fits, reports, points, rfl, rfl⟩

end OpLang
