/-
**Programs from sources are well formed.**

The tokens of a source are spelled as their kinds demand, and turn after turn a run comes to states in
which those to come are so (`Run.startingAt_isWellFormed`). Hence all items of the run are well formed,
with the anonymous prototype for expressions alone, and no diagnostic finds fault with a number
(`Run.ofTokens_isWellFormed`).
-/

import OpLang.Proofs.Item.WellFormed
import OpLang.Proofs.Program.Positions

namespace OpLang

/-- **The tokens of a source are spelled** as their kinds demand. -/
theorem ParseState.isSpelled_of_tokenize {source : Source} {tokens : List Token}
    (lexed : Token.tokenize source = .ok tokens) : (ofTokens tokens).IsSpelled := by
  have tiles := tiles_of_tokenize lexed
  unfold IsSpelled
  rw [tiles.upcoming_ofTokens]
  exact tiles.spells

namespace Run

/-- **Runs keep tokens spelled,** so they complete well-formed items and find fault with no number. -/
theorem startingAt_isWellFormed (table : PrecedenceTable) {state : ParseState}
    (spelled : state.IsSpelled) :
    (∀ item ∈ (Run.startingAt (.ofTable table) state).items, item.IsWellFormed table) ∧
      ∀ diagnostic ∈ (Run.startingAt (.ofTable table) state).diagnostics,
        ∀ text, diagnostic.cause ≠ .badNumber text := by
  induction state using Run.turns_induction (.ofTable table) with
  | ended state ended =>
    rw [startingAt_of_eof ended]
    exact ⟨nofun, nofun⟩
  | separator state separates ih =>
    rw [startingAt_of_semicolon separates]
    exact ih spelled.advance
  | completed state after item trace begins more reply ih =>
    have yields : (Parser.item (.ofTable table)).Yields state item after := ⟨trace, reply⟩
    obtain ⟨taken, takes⟩ := (Parser.item_walks (.ofTable table) state).of_parsed reply
    obtain ⟨items, diagnostics⟩ := ih (spelled.of_takes takes)
    rw [startingAt_of_parsed begins more reply]
    refine ⟨fun other member => ?_, diagnostics⟩
    rcases List.mem_cons.mp member with rfl | further
    · exact Parser.item_isWellFormed spelled yields
    · exact items other further
  | abandoned state after diagnostic trace begins more reply ih =>
    obtain ⟨taken, takes, faults⟩ := (Parser.item_walks (.ofTable table) state).of_failed reply
    obtain ⟨items, diagnostics⟩ := ih (spelled.of_takes takes).advance
    rw [startingAt_of_failed begins more reply]
    refine ⟨items, fun other member => ?_⟩
    rcases List.mem_cons.mp member with rfl | further
    · exact faults.cause_ne_badNumber (spelled.of_mem_taken takes)
    · exact diagnostics other further

/-- **Everything parsed from a source is well formed.** In every item, names are letters and digits with
a letter first and are no keywords, operators are single punctuation characters of the table, and
numbers are not negative. Expressions have the anonymous prototype, and no other item has. All numbers
of a source can be read. -/
theorem ofTokens_isWellFormed (table : PrecedenceTable) {source : Source} {tokens : List Token}
    (lexed : Token.tokenize source = .ok tokens) :
    let run := Run.ofTokens (.ofTable table) tokens
    (∀ item ∈ run.items, item.IsWellFormed table ∧
      (item.prototype.isAnonymous = true ↔ item.event = .expression)) ∧
    ∀ diagnostic ∈ run.diagnostics, ∀ text, diagnostic.cause ≠ .badNumber text := by
  intro run
  obtain ⟨items, diagnostics⟩ :=
    startingAt_isWellFormed table (ParseState.isSpelled_of_tokenize lexed)
  refine ⟨fun item member => ?_, diagnostics⟩
  have wellFormed := items item member
  exact ⟨wellFormed, wellFormed.isAnonymous_iff⟩

/-- A definition, and a parenthesis that closes nothing. -/
def halving : Source := ⟨"def half(x)x*.5)", "half.k"⟩

/-- The tokens of `halving`. -/
def halvingTokens : List Token :=
  [⟨.defKeyword, "def", .ofNat 0 3 "half.k"⟩, ⟨.identifier, "half", .ofNat 4 4 "half.k"⟩,
    ⟨.openParen, "(", .ofNat 8 1 "half.k"⟩, ⟨.identifier, "x", .ofNat 9 1 "half.k"⟩,
    ⟨.closeParen, ")", .ofNat 10 1 "half.k"⟩, ⟨.identifier, "x", .ofNat 11 1 "half.k"⟩,
    ⟨.operator, "*", .ofNat 12 1 "half.k"⟩, ⟨.number, ".5", .ofNat 13 2 "half.k"⟩,
    ⟨.closeParen, ")", .ofNat 15 1 "half.k"⟩, .atEnd (.ofNat 16 "half.k")]

/-- The item of `halving`. -/
def halvingItem : Item :=
  .definition ⟨⟨"half", ["x"]⟩, .binary "*" (.reference "x") (.number (.ofDecimal false 5 (-1)))⟩

theorem tokenize_halving : Token.tokenize halving = .ok halvingTokens := by
  have pieces : Lexeme.pieces halving.text.toList =
      ([⟨.word, "def".toList⟩, ⟨.blank, [' ']⟩, ⟨.word, "half".toList⟩, ⟨.openParen, ['(']⟩,
        ⟨.word, ['x']⟩, ⟨.closeParen, [')']⟩, ⟨.word, ['x']⟩, ⟨.operator, ['*']⟩,
        ⟨.numeral, ".5".toList⟩, ⟨.closeParen, [')']⟩], []) := by cbv
  rw [tokenize_of_pieces pieces]
  rfl

theorem items_halvingTokens :
    let run := Run.ofTokens (.ofTable .standard) halvingTokens
    run.items = [halvingItem] ∧ run.diagnostics = [⟨.noExpression ")", .ofNat 15 "half.k"⟩] := by
  intro run
  let start := ParseState.ofTokens halvingTokens
  let body := start.advance.advance.advance.advance.advance
  let after := body.advance.advance.advance
  have signature : Parser.prototype.Yields start.advance ⟨"half", ["x"]⟩ body :=
    Parser.yields_prototype.mpr ⟨rfl, rfl, Or.inr ⟨by decide, _,
      Parser.yields_parameters.mpr ⟨rfl, Or.inl ⟨rfl, rfl, rfl⟩⟩, rfl⟩⟩
  have half : Numeral.read? ".5".toList = some (.ofDecimal false 5 (-1)) := rfl
  have product : (Parser.expr (.ofTable .standard)).Yields body
      (.binary "*" (.reference "x") (.number (.ofDecimal false 5 (-1)))) after := by
    refine Parser.yields_expr.mpr ⟨rfl, _, _, after.deeper,
      Parser.yields_operand_of_reference rfl (by decide), ?_, rfl⟩
    refine Parser.yields_chain.mpr (Or.inr ⟨by decide, _, _, _, _,
      Parser.yields_operand_of_number rfl half, Parser.yields_extended.mpr (Or.inr ⟨?_, rfl, rfl⟩),
      Parser.yields_chain.mpr (Or.inl ⟨?_, rfl, rfl⟩)⟩) <;> decide
  obtain ⟨trace, reply⟩ : (Parser.item (.ofTable .standard)).Yields start halvingItem after :=
    Parser.yields_item.mpr (Or.inl ⟨rfl, _, _, _, signature, product, rfl⟩)
  have stopped (table : PrecedenceTable) : Parser.item (.ofTable table) after =
      .failed ⟨.noExpression ")", .ofNat 15 "half.k"⟩ after [.descend after] := by cbv
  have turns : run = _ := startingAt_of_parsed (by decide) (by decide) reply
  rw [startingAt_of_failed (by decide) (by decide) (stopped _), startingAt_of_eof rfl] at turns
  rw [turns]
  exact ⟨rfl, rfl⟩

/-- The definition of `halving` is well formed, it is not taken for an expression, and what is reported
behind it is no unreadable number. -/
theorem ofTokens_isWellFormed_halving :
    ∃ tokens diagnostic, Token.tokenize halving = .ok tokens ∧
      (Run.ofTokens (.ofTable .standard) tokens).items = [halvingItem] ∧
      (Run.ofTokens (.ofTable .standard) tokens).diagnostics = [diagnostic] ∧
      halvingItem.IsWellFormed .standard ∧ halvingItem.prototype.isAnonymous ≠ true ∧
      ∀ text, diagnostic.cause ≠ .badNumber text := by
  obtain ⟨items, diagnostics⟩ := items_halvingTokens
  obtain ⟨onItems, onDiagnostics⟩ := ofTokens_isWellFormed .standard tokenize_halving
  rw [items] at onItems
  rw [diagnostics] at onDiagnostics
  obtain ⟨wellFormed, anonymous⟩ := onItems halvingItem List.mem_cons_self
  have named : halvingItem.prototype.isAnonymous ≠ true := mt anonymous.mp (by decide)
  exact ⟨_, _, tokenize_halving, items, diagnostics, wellFormed, named,
    onDiagnostics _ List.mem_cons_self⟩

end Run

end OpLang
