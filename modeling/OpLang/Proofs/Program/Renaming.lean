/-
**Spans and names never steer the parser.**

A token list is renamed from another one if the tokens agree pairwise in kind, operators and numbers
are spelled the same, and names are called as a function on names tells; where tokens stand, and how
the other kinds are spelled, is left open (`Token.IsRenamed`). The runs of two such lists are in step
(`Simulation.ofRenaming`): no parser looks at more than kinds, operators and numbers.

A diagnostic repeats the value and the position of a token, and tokens of one value may stand at one
position. Which token it is, the driver tells by the place where the parser stopped: that is the index
in the report of a turn.

* `Run.reports_point`: every report has the diagnostic that is raised at the token of its index.
* `Run.ofTokens_renamed`: a run on renamed tokens completes the renamed items, and reports the same at
  the tokens of the same indices.
-/

import OpLang.Proofs.Program.Account
import OpLang.Proofs.Program.Simulation

namespace OpLang

/-! ### Reports -/

/-- A diagnostic with the index of the token at fault among all tokens. -/
structure Report where
  index : Nat
  diagnostic : Diagnostic
deriving DecidableEq

/-- Whether the diagnostic of a report is the one raised at the token of its index. -/
def Report.PointsInto (tokens : List Token) (report : Report) : Prop :=
  ∃ token, tokens[report.index]? = some token ∧
    report.diagnostic = report.diagnostic.raisedAt token

/-- The report on a diagnostic of a parser that stopped in a state: before the token at fault, or right
behind a number. -/
def Diagnostic.reportedFrom (diagnostic : Diagnostic) (after : ParseState) : Report :=
  ⟨if diagnostic.cause.isAtCurrent then after.stream.consumed else after.stream.consumed - 1,
    diagnostic⟩

/-- The report of a turn that was abandoned. -/
def Turn.report? : Turn → Option Report
  | .abandoned _ diagnostic _ after => some (diagnostic.reportedFrom after)
  | _ => none

namespace Run

/-- The reports of a run, in order. -/
def reports (run : Run) : List Report := run.turns.filterMap Turn.report?

/-- The diagnostics of a run are those of its reports. -/
theorem map_diagnostic_reports (run : Run) :
    run.reports.map Report.diagnostic = run.diagnostics := by
  rw [reports, diagnostics, List.map_filterMap]
  refine List.filterMap_congr fun turn _ => ?_
  cases turn <;> rfl

end Run

/-- **A parser finds fault with the token of the reported index:** so many tokens come before it. -/
theorem Parser.Faults.pointsInto {start state after : ParseState} {before taken : List Token}
    {diagnostic : Diagnostic} (faults : Parser.Faults taken after diagnostic)
    (fresh : start.stream.consumed = 0) (earlier : start.Takes before state)
    (takes : state.Takes taken after) :
    (diagnostic.reportedFrom after).PointsInto start.upcoming := by
  have upcoming := (earlier.trans takes).upcoming_eq
  have consumed := (earlier.trans takes).consumed_eq
  rw [fresh, Nat.zero_add] at consumed
  cases faults with
  | @current diagnostic here =>
    refine ⟨after.current, ?_, (diagnostic.raisedAt_raisedAt _ _).symm⟩
    show start.upcoming[if _ then _ else _]? = _
    rw [Diagnostic.isAtCurrent_raisedAt, here, if_pos rfl, upcoming, consumed,
      List.getElem?_append_right (Nat.le_refl _), Nat.sub_self, ← List.head?_eq_getElem?]
    exact after.head?_upcoming
  | @number front token last _ _ =>
    subst last
    refine ⟨token, ?_, rfl⟩
    show start.upcoming[after.stream.consumed - 1]? = _
    rw [← List.append_assoc, List.length_append, List.length_singleton] at consumed
    rw [consumed, Nat.add_sub_cancel, upcoming, ← List.append_assoc, List.append_assoc,
      List.getElem?_append_right (Nat.le_refl _), Nat.sub_self]
    rfl

/-- **Every report points at a token.** -/
theorem Run.reports_point (grammar : Grammar) {start state : ParseState} {before : List Token}
    (fresh : start.stream.consumed = 0) (takes : start.Takes before state) :
    ∀ report ∈ (Run.startingAt grammar state).reports, report.PointsInto start.upcoming := by
  -- The induction is on the turns; `before` are the tokens that the cursor has moved over so far.
  induction state using Run.turns_induction grammar generalizing before with
  | ended state ended =>
    rw [startingAt_of_eof ended]
    exact nofun
  | separator state separates ih =>
    rw [startingAt_of_semicolon separates]
    exact ih (takes.trans (.current (by simp [separates])))
  | completed state after item trace begins more reply ih =>
    obtain ⟨taken, onward⟩ := (Parser.item_walks grammar state).of_parsed reply
    rw [startingAt_of_parsed begins more reply]
    exact ih (takes.trans onward)
  | abandoned state after diagnostic trace begins more reply ih =>
    obtain ⟨taken, onward, faults⟩ := (Parser.item_walks grammar state).of_failed reply
    obtain ⟨skipped, behind⟩ := after.exists_takes_advance
    rw [startingAt_of_failed begins more reply]
    intro report member
    rcases List.mem_cons.mp member with rfl | further
    · exact faults.pointsInto fresh takes onward
    · exact ih ((takes.trans onward).trans behind) report further

/-! ### Renamed tokens -/

/-- Whether one token is another one with its name renamed, and anything that does not matter to the
parser changed. -/
structure Token.IsRenamed (rename : String → String) (token token' : Token) : Prop where
  kind_eq : token'.kind = token.kind
  name_eq : token.kind = .identifier → token'.value = rename token.value
  number_eq : token.kind = .number → token'.value = token.value
  operator_eq : token.kind = .operator → token'.value = token.value

variable {rename : String → String} {tokens tokens' : List Token}

namespace Token

/-- Any two ends are alike. -/
theorem isRenamed_of_eof {token token' : Token} (ended : token.kind = .eof)
    (ended' : token'.kind = .eof) : token.IsRenamed rename token' := by
  refine ⟨ended'.trans ended.symm, ?_, ?_, ?_⟩ <;> simp [ended]

/-- The binding power of a token hangs on what does not change. -/
theorem IsRenamed.bindingPower_eq {token token' : Token} (renamed : token.IsRenamed rename token')
    (grammar : Grammar) : grammar.bindingPower token' = grammar.bindingPower token := by
  unfold Grammar.bindingPower
  rw [renamed.kind_eq]
  by_cases operator : token.kind = .operator
  · rw [if_pos operator, if_pos operator, renamed.operator_eq operator]
  · rw [if_neg operator, if_neg operator]

end Token

/-- The renamed tokens are to come in the same order, and if an end is put behind the tokens, one is
put behind the renamed ones too. -/
theorem ParseState.upcoming_ofTokens_renamed
    (renamed : List.Forall₂ (Token.IsRenamed rename) tokens tokens') :
    List.Forall₂ (Token.IsRenamed rename) (ofTokens tokens).upcoming
      (ofTokens tokens').upcoming := by
  -- The last tokens are of one kind, so either both lists end in an end or neither does.
  have kinds : tokens'.map Token.kind = tokens.map Token.kind := by
    induction renamed with
    | nil => rfl
    | cons first _ ih => rw [List.map_cons, List.map_cons, first.kind_eq, ih]
  have final : tokens'.getLast?.map Token.kind = tokens.getLast?.map Token.kind := by
    rw [← List.getLast?_map, kinds, List.getLast?_map]
  rcases upcoming_ofTokens tokens with
    ⟨before, ending, parts, ended, same⟩ | ⟨goesOn, last, ended, same⟩
  · rcases upcoming_ofTokens tokens' with ⟨_, _, _, _, same'⟩ | ⟨goesOn', _⟩
    · rw [same, same']
      exact renamed
    · rw [parts, List.getLast?_concat, Option.map_some, ended, Option.map_eq_some_iff] at final
      obtain ⟨token, member, kind⟩ := final
      exact absurd kind (goesOn' token member)
  · rcases upcoming_ofTokens tokens' with ⟨_, _, parts', ended', _⟩ | ⟨_, last', ended', same'⟩
    · rw [parts', List.getLast?_concat, Option.map_some, ended', eq_comm,
        Option.map_eq_some_iff] at final
      obtain ⟨token, member, kind⟩ := final
      exact absurd kind (goesOn token member)
    · rw [same, same']
      exact List.rel_append renamed (.cons (Token.isRenamed_of_eof ended ended') .nil)

namespace ParseState

/-- Whether two states have read as many tokens, have as many expressions open, and renamed tokens are
to come in the second where the others are in the first. -/
structure IsRenamed (rename : String → String) (state state' : ParseState) : Prop where
  depth_eq : state'.depth = state.depth
  consumed_eq : state'.stream.consumed = state.stream.consumed
  upcoming : List.Forall₂ (Token.IsRenamed rename) state.upcoming state'.upcoming

theorem IsRenamed.ofTokens (renamed : List.Forall₂ (Token.IsRenamed rename) tokens tokens') :
    (ParseState.ofTokens tokens).IsRenamed rename (ParseState.ofTokens tokens') where
  depth_eq := rfl
  consumed_eq := (consumed_ofTokens tokens').trans (consumed_ofTokens tokens).symm
  upcoming := upcoming_ofTokens_renamed renamed

namespace IsRenamed

variable {state state' : ParseState}

theorem current (renamed : state.IsRenamed rename state') :
    state.current.IsRenamed rename state'.current := by
  have upcoming := renamed.upcoming
  have front := state.head?_upcoming
  have front' := state'.head?_upcoming
  generalize state.upcoming = tokens, state'.upcoming = tokens' at upcoming front front'
  cases upcoming with
  | nil => cases front
  | cons first _ =>
    obtain rfl := Option.some.inj front
    obtain rfl := Option.some.inj front'
    exact first

/-- Both cursors move on, or both stay at their ends. -/
theorem advance (renamed : state.IsRenamed rename state') :
    state.advance.IsRenamed rename state'.advance := by
  have remaining : state'.remaining = state.remaining := by
    have lengths := renamed.upcoming.length_eq
    rw [length_upcoming, length_upcoming] at lengths
    omega
  rcases Nat.eq_zero_or_pos state.remaining with last | more
  · rw [(advance_of_remaining_eq_zero last).1,
      (advance_of_remaining_eq_zero (remaining.trans last)).1]
    exact renamed
  · have more' : 0 < state'.remaining := remaining ▸ more
    refine ⟨renamed.depth_eq, ?_, ?_⟩
    · rw [consumed_advance more, consumed_advance more', renamed.consumed_eq]
    · have upcoming := renamed.upcoming
      rw [upcoming_of_remaining_pos more, upcoming_of_remaining_pos more'] at upcoming
      exact (List.forall₂_cons.mp upcoming).2

end IsRenamed

end ParseState

/-! ### Runs -/

/-- **The simulation of a run** by one on renamed tokens. -/
def Simulation.ofRenaming (grammar : Grammar) (rename : String → String) :
    Simulation grammar grammar where
  rename := rename
  alike := Token.IsRenamed rename
  meets := ParseState.IsRenamed rename
  kind_eq_or_ends := fun renamed => Or.inl renamed.kind_eq.symm
  name_eq := Token.IsRenamed.name_eq
  number_eq := Token.IsRenamed.number_eq
  operator_eq := Token.IsRenamed.operator_eq
  loose_iff := by
    intro token token' renamed
    rw [renamed.bindingPower_eq]
  looser_iff := by
    intro token token' other other' renamed renamed'
    rw [renamed.bindingPower_eq, renamed'.bindingPower_eq]
  isFull_eq := fun renamed => by rw [renamed.depth_eq]
  current := ParseState.IsRenamed.current
  advance := fun renamed _ => renamed.advance
  deeper := fun renamed => ⟨congrArg (· + 1) renamed.depth_eq, renamed.consumed_eq, renamed.upcoming⟩
  shallower := fun renamed =>
    ⟨congrArg (· - 1) renamed.depth_eq, renamed.consumed_eq, renamed.upcoming⟩

theorem Simulation.isStrict_ofRenaming (grammar : Grammar) (rename : String → String) :
    (ofRenaming grammar rename).IsStrict where
  kind_eq := Token.IsRenamed.kind_eq
  advance := ParseState.IsRenamed.advance

namespace Report

/-- Whether two reports have the same index, and diagnostics of the same cause. -/
def IsAlike (report report' : Report) : Prop :=
  report'.index = report.index ∧
    ∃ token, report'.diagnostic = report.diagnostic.raisedAt token

/-- Whether two reports have the same index, and the diagnostics of one cause that are raised at the
tokens of this index in two lists. -/
def Corresponds (tokens tokens' : List Token) (report report' : Report) : Prop :=
  ∃ token token', tokens[report.index]? = some token ∧ tokens'[report.index]? = some token' ∧
    report.diagnostic = report.diagnostic.raisedAt token ∧
    report' = ⟨report.index, report.diagnostic.raisedAt token'⟩

theorem IsAlike.corresponds {report report' : Report} (alike : report.IsAlike report')
    (points : report.PointsInto tokens) (points' : report'.PointsInto tokens') :
    Corresponds tokens tokens' report report' := by
  obtain ⟨index, diagnostic⟩ := report
  obtain ⟨index', diagnostic'⟩ := report'
  obtain ⟨rfl, other, same⟩ := alike
  obtain ⟨token, inside, raised⟩ := points
  obtain ⟨token', inside', raised'⟩ := points'
  have same : diagnostic' = diagnostic.raisedAt other := same
  refine ⟨token, token', inside, inside', raised, congrArg (Report.mk _) ?_⟩
  calc diagnostic' = diagnostic'.raisedAt token' := raised'
    _ = diagnostic.raisedAt token' := by rw [same, Diagnostic.raisedAt_raisedAt]

end Report

/-- Turns in step have reports that are alike. -/
theorem Simulation.reports_of_inStep {grammar : Grammar} {turns turns' : List Turn}
    (inStep : List.Forall₂ (ofRenaming grammar rename).InStep turns turns') :
    List.Forall₂ Report.IsAlike (turns.filterMap Turn.report?) (turns'.filterMap Turn.report?) := by
  refine List.rel_filterMap ?_ inStep
  intro turn turn' inStep
  cases inStep with
  | separator => exact .none
  | completed => exact .none
  | @abandoned _ _ after after' diagnostic diagnostic' _ _ blames meets =>
    obtain ⟨token, token', _, raised, raised'⟩ := blames.corresponds meets
    refine .some ⟨?_, token', raised'⟩
    show (if _ then _ else _) = if _ then _ else _
    rw [raised', Diagnostic.isAtCurrent_raisedAt, meets.consumed_eq]

namespace Run

/-- The reports of runs in step correspond one by one. -/
theorem reports_renamed {grammar : Grammar} {state state' : ParseState}
    (fresh : state.stream.consumed = 0) (renamed : state.IsRenamed rename state')
    (turns : List.Forall₂ (Simulation.ofRenaming grammar rename).InStep
      (Run.startingAt grammar state).turns (Run.startingAt grammar state').turns) :
    List.Forall₂ (Report.Corresponds state.upcoming state'.upcoming)
      (Run.startingAt grammar state).reports (Run.startingAt grammar state').reports := by
  have points := reports_point grammar fresh .nothing
  have points' := reports_point grammar (renamed.consumed_eq.trans fresh) .nothing
  have alike := Simulation.reports_of_inStep turns
  have pointed := (List.forall₂_and_left _ _).mpr ⟨points, alike⟩
  have pointed' := (List.forall₂_and_left _ _).mpr ⟨points', pointed.flip⟩
  exact pointed'.flip.imp fun report report' ⟨points', points, alike⟩ =>
    alike.corresponds points points'

/-- **Spans and names never steer the parser.** If tokens agree pairwise in kind, operators and numbers
are spelled the same, and names are called as a function tells, then a run on the second tokens
completes the items of the first with their names mapped by this function, announces the same and comes
to the same place. It reports as often, and each time at the token of the same index the diagnostic of
the same cause. -/
theorem ofTokens_renamed (table : PrecedenceTable)
    (renamed : List.Forall₂ (Token.IsRenamed rename) tokens tokens') :
    let start := ParseState.ofTokens tokens
    let start' := ParseState.ofTokens tokens'
    let run := Run.ofTokens (.ofTable table) tokens
    let run' := Run.ofTokens (.ofTable table) tokens'
    run'.items = run.items.map (Item.renamed rename) ∧ run'.announced = run.announced ∧
      run'.final.stream.consumed = run.final.stream.consumed ∧
      run.diagnostics = run.reports.map Report.diagnostic ∧
      run'.diagnostics = run'.reports.map Report.diagnostic ∧
      List.Forall₂ (Report.Corresponds start.upcoming start'.upcoming) run.reports run'.reports := by
  intro start start' run run'
  have starts : start.IsRenamed rename start' := .ofTokens renamed
  obtain ⟨turns, final⟩ :=
    Simulation.turns_mirror (Simulation.isStrict_ofRenaming (.ofTable table) rename) starts
  have items : run'.items = run.items.map (Item.renamed rename) := Simulation.items_of_inStep turns
  refine ⟨items, ?_, final.consumed_eq, run.map_diagnostic_reports.symm,
    run'.map_diagnostic_reports.symm, reports_renamed ?_ starts turns⟩
  · rw [announced_eq_events, announced_eq_events, events, events, items, List.map_map]
    exact List.map_congr_left fun item _ => item.event_renamed rename
  · exact ParseState.consumed_ofTokens tokens

/-- The tokens of `)a;b(`. -/
def unbalancedTokens : List Token :=
  [.unplaced .closeParen ")", .unplaced .identifier "a", .unplaced .semicolon ";",
    .unplaced .identifier "b", .unplaced .openParen "("]

/-- The same with one name for both and other brackets, all in one place of a source. -/
def unbalancedTokensRenamed : List Token :=
  let span : Span := .ofNat 7 1 "one.k"
  [⟨.closeParen, "]", span⟩, ⟨.identifier, "x", span⟩, ⟨.semicolon, ";", span⟩,
    ⟨.identifier, "x", span⟩, ⟨.openParen, "[", span⟩]

theorem ofTokens_unbalancedTokens :
    let run := Run.ofTokens (.ofTable .empty) unbalancedTokens
    run.items = [.expression ⟨.anonymous, .reference "a"⟩] ∧
      run.reports = [⟨0, ⟨.noExpression ")", .unknown⟩⟩, ⟨5, ⟨.noExpression "EOF", .unknown⟩⟩] := by
  intro run
  let start := ParseState.ofTokens unbalancedTokens
  let second := start.advance.advance.advance
  have bracket : Parser.item (.ofTable .empty) start =
      .failed ⟨.noExpression ")", .unknown⟩ start [.descend start] := by cbv
  have name : Parser.item (.ofTable .empty) start.advance =
      .parsed (.expression ⟨.anonymous, .reference "a"⟩) start.advance.advance
        [.descend start.advance] := by cbv
  have call : Parser.item (.ofTable .empty) second =
      .failed ⟨.noExpression "EOF", .unknown⟩ second.advance.advance
        [.descend second, .descend second.advance.advance.deeper] := by cbv
  have turns : run = _ := startingAt_of_failed (by decide) (by decide) bracket
  rw [startingAt_of_parsed (by decide) (by decide) name, startingAt_of_semicolon rfl,
    startingAt_of_failed (by decide) (by decide) call, startingAt_of_eof rfl] at turns
  rw [turns]
  exact ⟨rfl, rfl⟩

/-- Both runs complete the name, and report on the bracket and on the end that is put behind the last
token. -/
theorem ofTokens_renamed_unbalancedTokens :
    let run' := Run.ofTokens (.ofTable .empty) unbalancedTokensRenamed
    List.Forall₂ (Token.IsRenamed fun _ => "x") unbalancedTokens unbalancedTokensRenamed ∧
      run'.items = [.expression ⟨.anonymous, .reference "x"⟩] ∧
      run'.diagnostics = [⟨.noExpression "]", .ofNat 7 "one.k"⟩,
        ⟨.noExpression "EOF", .ofNat 8 "one.k"⟩] := by
  intro run'
  have renamed : List.Forall₂ (Token.IsRenamed fun _ => "x") unbalancedTokens
      unbalancedTokensRenamed := by
    unfold unbalancedTokens unbalancedTokensRenamed
    refine .cons ?_ (.cons ?_ (.cons ?_ (.cons ?_ (.cons ?_ .nil)))) <;>
      exact ⟨rfl, by decide, by decide, by decide⟩
  obtain ⟨items, _, _, _, diagnostics, alike⟩ := ofTokens_renamed .empty renamed
  obtain ⟨completed, reported⟩ := ofTokens_unbalancedTokens
  rw [completed] at items
  rw [reported] at alike
  refine ⟨renamed, items, diagnostics.trans ?_⟩
  generalize run'.reports = reports' at alike
  obtain _ | ⟨⟨_, token, _, inside, _, rfl⟩, _ | ⟨⟨_, last, _, inside', _, rfl⟩, _ | _⟩⟩ := alike
  obtain rfl := Option.some.inj inside
  obtain rfl := Option.some.inj inside'
  rfl

end Run

end OpLang
