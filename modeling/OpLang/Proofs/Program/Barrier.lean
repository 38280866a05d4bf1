/-
**A semicolon is a barrier.**

The run of tokens, a semicolon and more tokens does first what the run of the tokens before the
semicolon does and then what the run of those behind it does. No parser goes on at a semicolon, and
none goes on at an end; so up to the semicolon the run of all tokens keeps in step with the run of
the tokens before it (`Simulation.barrier`), which comes to its end where the other one comes to the
semicolon. An item that fails there fails for the same cause, and its diagnostic is raised at the
semicolon instead of the end (`Turn.diagnosticBefore?`).

* `startingAt_barrier`: by induction over the turns before the semicolon, the run goes on behind it
  with as many expressions open as at its start, whatever happened before.
* `ofTokens_append_semicolon`: hence items, announcements and diagnostics are those of the two parts.
-/

import OpLang.Proofs.Parser.Walk
import OpLang.Proofs.Program.Simulation

namespace OpLang

/-! ### Tokens up to a semicolon -/

/-- Whether a token and one of the longer run stand for each other: a token before the semicolon for
itself, and the end for the semicolon. -/
def AlikeUpTo (before : List Token) (ending semicolon token token' : Token) : Prop :=
  (token ∈ before ∧ token' = token) ∨ (token = ending ∧ token' = semicolon)

namespace AlikeUpTo

variable {before : List Token} {ending semicolon token token' : Token}

theorem eq_of_kind {kind : Token.Kind} (alike : AlikeUpTo before ending semicolon token token')
    (ended : ending.kind = .eof) (is : token.kind = kind) (inner : kind ≠ .eof) :
    token' = token := by
  rcases alike with ⟨_, rfl⟩ | ⟨rfl, _⟩
  · rfl
  · exact absurd (is.symm.trans ended) inner

/-- Neither an end nor a semicolon has a binding power. -/
theorem bindingPower_eq (alike : AlikeUpTo before ending semicolon token token')
    (ended : ending.kind = .eof) (separates : semicolon.kind = .semicolon) (grammar : Grammar) :
    grammar.bindingPower token' = grammar.bindingPower token := by
  rcases alike with ⟨_, rfl⟩ | ⟨rfl, rfl⟩
  · rfl
  · simp [Grammar.bindingPower, ended, separates]

end AlikeUpTo

/-- **The simulation of a run that comes to an end** by one that comes to a semicolon instead, with
the tokens `behind` still to come after it. -/
def Simulation.barrier (grammar : Grammar) (before behind : List Token) {ending semicolon : Token}
    (ended : ending.kind = .eof) (separates : semicolon.kind = .semicolon) :
    Simulation grammar grammar where
  rename := id
  alike := AlikeUpTo before ending semicolon
  meets state state' :=
    (∀ token ∈ state.stream.pending, token ∈ before) ∧ state.stream.last = ending ∧
      state'.upcoming = state.stream.pending ++ semicolon :: behind ∧ state'.depth = state.depth
  kind_eq_or_ends := by
    rintro token token' (⟨_, rfl⟩ | ⟨rfl, rfl⟩)
    · exact Or.inl rfl
    · exact Or.inr ⟨ended, separates⟩
  name_eq := fun alike kind => congrArg Token.value (alike.eq_of_kind ended kind nofun)
  number_eq := fun alike kind => congrArg Token.value (alike.eq_of_kind ended kind nofun)
  operator_eq := fun alike kind => congrArg Token.value (alike.eq_of_kind ended kind nofun)
  loose_iff := by
    intro token token' alike
    rw [alike.bindingPower_eq ended separates]
  looser_iff := by
    intro token token' other other' alike alike'
    rw [alike.bindingPower_eq ended separates, alike'.bindingPower_eq ended separates]
  isFull_eq := by
    rintro state state' ⟨_, _, _, depth⟩
    rw [depth]
  current := by
    rintro ⟨⟨consumed, pending, last, ends⟩, depth⟩ state' ⟨inside, rfl, upcoming, _⟩
    cases pending with
    | nil => exact Or.inr ⟨rfl, ParseState.current_eq_of_upcoming upcoming⟩
    | cons token others =>
      exact Or.inl ⟨inside token List.mem_cons_self, ParseState.current_eq_of_upcoming upcoming⟩
  advance := by
    rintro ⟨⟨consumed, pending, last, ends⟩, depth⟩ state' ⟨inside, rfl, upcoming, same⟩ more
    cases pending with
    | nil => exact absurd ends more
    | cons token others =>
      refine ⟨fun other member => inside other (List.mem_cons_of_mem _ member), rfl, ?_, same⟩
      exact (ParseState.upcoming_advance upcoming more).2
  deeper := fun ⟨inside, last, upcoming, depth⟩ =>
    ⟨inside, last, upcoming, congrArg (· + 1) depth⟩
  shallower := fun ⟨inside, last, upcoming, depth⟩ =>
    ⟨inside, last, upcoming, congrArg (· - 1) depth⟩

/-! ### Failures at the end -/

namespace Turn

/-- Whether an item failed at the end: its parser stopped there, and did not fail before. -/
def failedAtEnd : Turn → Bool
  | .abandoned _ diagnostic _ after => diagnostic.cause.isAtCurrent && after.current.kind == .eof
  | _ => false

/-- The diagnostic of a turn, raised at a semicolon if the turn failed at the end. -/
def diagnosticBefore? (semicolon : Token) (turn : Turn) : Option Diagnostic :=
  turn.diagnostic?.map fun diagnostic =>
    if turn.failedAtEnd then diagnostic.raisedAt semicolon else diagnostic

theorem diagnosticBefore?_abandoned (semicolon : Token) (start : ParseState)
    (diagnostic : Diagnostic) (trace : List Step) (after : ParseState) :
    (abandoned start diagnostic trace after).diagnosticBefore? semicolon =
      some (if (abandoned start diagnostic trace after).failedAtEnd then
        diagnostic.raisedAt semicolon else diagnostic) := rfl

/-- Whether the diagnostic of a turn is raised at one of some tokens, and at an end exactly if the
turn failed at the end. -/
def Reports (tokens : List Token) (turn : Turn) : Prop :=
  ∀ diagnostic ∈ turn.diagnostic?, ∃ token ∈ tokens, diagnostic = diagnostic.raisedAt token ∧
    (turn.failedAtEnd = true ↔ token.kind = .eof)

theorem Reports.of_silent {tokens : List Token} {turn : Turn} (silent : turn.diagnostic? = none) :
    turn.Reports tokens := by
  intro diagnostic reported
  rw [silent] at reported
  cases reported

end Turn

namespace Run

/-- Whether one run reports what two others report, the first one's failures at its end raised at a
semicolon, and completes their items. -/
structure IsJoined (semicolon : Token) (tokens : List Token) (first second whole : Run) : Prop where
  items : whole.items = first.items ++ second.items
  diagnostics : whole.diagnostics =
    first.turns.filterMap (Turn.diagnosticBefore? semicolon) ++ second.diagnostics
  reports : ∀ turn ∈ first.turns, turn.Reports tokens

/-- A run without turns leaves the whole to the other one. -/
theorem IsJoined.nothing {semicolon : Token} {tokens : List Token} {final : ParseState}
    {second whole : Run} (items : whole.items = second.items)
    (diagnostics : whole.diagnostics = second.diagnostics) :
    IsJoined semicolon tokens ⟨[], final⟩ second whole :=
  ⟨items, diagnostics, fun _ none => absurd none List.not_mem_nil⟩

/-- Runs are still joined with one more turn in front. -/
theorem IsJoined.turn {semicolon : Token} {tokens : List Token} {first second whole : Run}
    (joined : IsJoined semicolon tokens first second whole) {turn turn' : Turn}
    (sameItem : turn'.item? = turn.item?)
    (sameDiagnostic : turn'.diagnostic? = turn.diagnosticBefore? semicolon)
    (reports : turn.Reports tokens) {final final' : ParseState} :
    IsJoined semicolon tokens ⟨turn :: first.turns, final⟩ second ⟨turn' :: whole.turns, final'⟩ := by
  refine ⟨?_, ?_, ?_⟩
  · have items := joined.items
    unfold Run.items at items ⊢
    rw [List.filterMap_cons, List.filterMap_cons, sameItem, items]
    cases turn.item? <;> rfl
  · have diagnostics := joined.diagnostics
    unfold Run.diagnostics at diagnostics ⊢
    rw [List.filterMap_cons, List.filterMap_cons, sameDiagnostic, diagnostics]
    cases turn.diagnosticBefore? semicolon <;> rfl
  · intro other member
    rcases List.mem_cons.mp member with rfl | further
    · exact reports
    · exact joined.reports other further

variable {grammar : Grammar} {before behind : List Token} {ending semicolon : Token}
variable {ended : ending.kind = .eof} {separates : semicolon.kind = .semicolon}
variable {state state' : ParseState}

/-! ### One turn -/

/-- Where the shorter run is at its end, the longer one is at the semicolon. -/
theorem barrier_of_eof (noEnd : ∀ token ∈ before, token.kind ≠ .eof)
    (meets : (Simulation.barrier grammar before behind ended separates).meets state state')
    (atEnd : state.current.kind = .eof) :
    state.advance = state ∧ state'.current.kind = .semicolon ∧
      state'.advance.upcoming = behind := by
  obtain ⟨⟨consumed, pending, last, ends⟩, depth⟩ := state
  obtain ⟨inside, rfl, upcoming, _⟩ := meets
  cases pending with
  | nil =>
    obtain ⟨rfl, after⟩ := ParseState.upcoming_advance upcoming (by simp [separates])
    exact ⟨rfl, separates, after⟩
  | cons token others => exact absurd atEnd (noEnd token (inside token List.mem_cons_self))

/-- Elsewhere both runs are at the same token. -/
theorem barrier_of_ne_eof
    (meets : (Simulation.barrier grammar before behind ended separates).meets state state')
    (more : state.current.kind ≠ .eof) : state'.current = state.current := by
  have alike : AlikeUpTo before ending semicolon state.current state'.current :=
    Simulation.current _ meets
  exact alike.eq_of_kind ended rfl more

/-- A failure in the longer run is that in the shorter one, raised at the semicolon if it was raised
at the end. -/
theorem abandoned_of_blames (noEnd : ∀ token ∈ before, token.kind ≠ .eof)
    {after after' : ParseState} {diagnostic diagnostic' : Diagnostic}
    (blames : (Simulation.barrier grammar before behind ended separates).Blames diagnostic after
      diagnostic' after')
    (meets : (Simulation.barrier grammar before behind ended separates).meets after after')
    (start : ParseState) (trace : List Step) :
    (Turn.abandoned start diagnostic trace after).diagnosticBefore? semicolon = some diagnostic' ∧
      (Turn.abandoned start diagnostic trace after).Reports (before ++ [ending]) := by
  cases blames with
  | @current diagnostic after after' here =>
    have atEnd : (Turn.abandoned start (diagnostic.raisedAt after.current) trace
        after).failedAtEnd = true ↔ after.current.kind = .eof := by
      simp [Turn.failedAtEnd, Diagnostic.isAtCurrent_raisedAt, here]
    have alike : AlikeUpTo before ending semicolon after.current after'.current :=
      Simulation.current _ meets
    have raised : (diagnostic.raisedAt after.current).raisedAt after.current =
        diagnostic.raisedAt after.current :=
      Diagnostic.raisedAt_raisedAt diagnostic _ _
    rcases alike with ⟨member, same⟩ | ⟨isEnding, isSemicolon⟩
    · refine ⟨?_, ?_⟩
      · rw [Turn.diagnosticBefore?_abandoned, if_neg (mt atEnd.mp (noEnd _ member)), same]
      · intro reported equal
        obtain rfl := Option.some.inj equal
        exact ⟨after.current, List.mem_append_left _ member, raised.symm, atEnd⟩
    · refine ⟨?_, ?_⟩
      · rw [Turn.diagnosticBefore?_abandoned, if_pos (atEnd.mpr (isEnding ▸ ended)),
          Diagnostic.raisedAt_raisedAt, isSemicolon]
      · intro reported equal
        obtain rfl := Option.some.inj equal
        exact ⟨after.current, by simp [isEnding], raised.symm, atEnd⟩
  | @number token token' after after' alike kind =>
    have inside : (Turn.abandoned start ⟨.badNumber token.value, token.start⟩ trace
        after).failedAtEnd = false := rfl
    have notEnd : token.kind ≠ .eof := by simp [kind]
    obtain ⟨member, rfl⟩ : token ∈ before ∧ token' = token :=
      alike.resolve_right fun ⟨isEnding, _⟩ => notEnd (isEnding ▸ ended)
    refine ⟨?_, ?_⟩
    · rw [Turn.diagnosticBefore?_abandoned, inside]
      rfl
    · intro reported equal
      obtain rfl := Option.some.inj equal
      refine ⟨token', List.mem_append_left _ member, rfl, ?_⟩
      simp [inside, notEnd]

/-! ### The run up to the semicolon -/

/-- **Up to the semicolon the longer run does what the shorter one does,** and then goes on behind the
semicolon, at the depth of its start. -/
theorem startingAt_barrier (noEnd : ∀ token ∈ before, token.kind ≠ .eof)
    (meets : (Simulation.barrier grammar before behind ended separates).meets state state') :
    ∃ fresh : ParseState, fresh.upcoming = behind ∧ fresh.depth = state.depth ∧
      IsJoined semicolon (before ++ [ending]) (Run.startingAt grammar state)
        (Run.startingAt grammar fresh) (Run.startingAt grammar state') := by
  induction state using turns_induction grammar generalizing state' with
  | ended state atEnd =>
    obtain ⟨_, separates', upcoming⟩ := barrier_of_eof noEnd meets atEnd
    refine ⟨state'.advance, upcoming, meets.2.2.2, ?_⟩
    rw [startingAt_of_eof atEnd, startingAt_of_semicolon separates']
    exact .nothing rfl rfl
  | separator state separator ih =>
    have more : state.current.kind ≠ .eof := by simp [separator]
    have separator' : state'.current.kind = .semicolon := by
      rw [barrier_of_ne_eof meets more]
      exact separator
    obtain ⟨fresh, upcoming, depth, joined⟩ := ih (Simulation.advance _ meets more)
    refine ⟨fresh, upcoming, depth, ?_⟩
    rw [startingAt_of_semicolon separator, startingAt_of_semicolon separator']
    refine joined.turn ?_ ?_ (.of_silent rfl)
    · rfl
    · rfl
  | completed state after item trace begins more reply ih =>
    have current := barrier_of_ne_eof meets more
    obtain ⟨after', trace', reply', meets'⟩ := (Simulation.item_mirrors _ meets).of_parsed reply
    obtain ⟨fresh, upcoming, depth, joined⟩ := ih meets'
    have kept : after.depth = state.depth :=
      (Parser.item_keepsDepth grammar state).of_yields ⟨trace, reply⟩
    refine ⟨fresh, upcoming, depth.trans kept, ?_⟩
    rw [startingAt_of_parsed begins more reply,
      startingAt_of_parsed (current ▸ begins) (current ▸ more) reply']
    refine joined.turn ?_ ?_ (.of_silent rfl)
    · exact congrArg some item.renamed_id
    · rfl
  | abandoned state after diagnostic trace begins more reply ih =>
    have current := barrier_of_ne_eof meets more
    obtain ⟨diagnostic', after', trace', reply', blames, meets'⟩ :=
      (Simulation.item_mirrors _ meets).of_failed reply
    obtain ⟨sameDiagnostic, reports⟩ := abandoned_of_blames noEnd blames meets' state trace
    have kept : after.depth = state.depth :=
      (Parser.item_keepsDepth grammar state).of_failed reply
    have goesOn : ∃ fresh : ParseState, fresh.upcoming = behind ∧ fresh.depth = state.depth ∧
        IsJoined semicolon (before ++ [ending]) (Run.startingAt grammar after.advance)
          (Run.startingAt grammar fresh) (Run.startingAt grammar after'.advance) := by
      by_cases atEnd : after.current.kind = .eof
      · -- The parser stopped at the semicolon, which is skipped after the failure.
        obtain ⟨same, _, upcoming⟩ := barrier_of_eof noEnd meets' atEnd
        refine ⟨after'.advance, upcoming, meets'.2.2.2.trans kept, ?_⟩
        rw [same, startingAt_of_eof atEnd]
        exact .nothing rfl rfl
      · obtain ⟨fresh, upcoming, depth, joined⟩ := ih (Simulation.advance _ meets' atEnd)
        exact ⟨fresh, upcoming, depth.trans kept, joined⟩
    obtain ⟨fresh, upcoming, depth, joined⟩ := goesOn
    refine ⟨fresh, upcoming, depth, ?_⟩
    rw [startingAt_of_failed begins more reply,
      startingAt_of_failed (current ▸ begins) (current ▸ more) reply']
    refine joined.turn ?_ ?_ reports
    · rfl
    · exact sameDiagnostic.symm

/-- Behind the semicolon stand the tokens of a run of its own; without any, an end stands there. -/
theorem exists_behind (grammar : Grammar) (before after : List Token) {semicolon : Token}
    (separates : semicolon.kind = .semicolon) :
    ∃ behind, (ParseState.ofTokens (before ++ semicolon :: after)).upcoming =
        before ++ semicolon :: behind ∧
      ∀ fresh : ParseState, fresh.upcoming = behind → fresh.depth = 0 →
        (Run.startingAt grammar fresh).items = (Run.ofTokens grammar after).items ∧
          (Run.startingAt grammar fresh).diagnostics =
            (Run.ofTokens grammar after).diagnostics := by
  cases after with
  | nil =>
    have goesOn : ∀ token ∈ (before ++ [semicolon]).getLast?, token.kind ≠ .eof := by
      simp [separates]
    obtain ⟨last, ended, start⟩ := ParseState.ofTokens_of_getLast? goesOn
    refine ⟨[last], ?_, ?_⟩
    · rw [start]
      exact List.append_assoc before [semicolon] [last]
    · intro fresh upcoming _
      have current := ParseState.current_eq_of_upcoming upcoming
      rw [startingAt_of_eof (by rw [current]; exact ended), ofTokens, startingAt_of_eof rfl]
      exact ⟨rfl, rfl⟩
  | cons token others =>
    refine ⟨(ParseState.ofTokens (token :: others)).upcoming, ?_, ?_⟩
    · have whole : (ParseState.ofTokens ((before ++ [semicolon]) ++ token :: others)).upcoming =
          (before ++ [semicolon]) ++ (ParseState.ofTokens (token :: others)).upcoming :=
        ParseState.upcoming_ofTokens_append (List.cons_ne_nil token others)
      rw [List.append_assoc, List.append_assoc] at whole
      exact whole
    · exact fun fresh upcoming depth => startingAt_congr upcoming depth

/-- **A semicolon is a barrier.** The run of tokens without an end among them, a semicolon and more
tokens completes the items of the two parts, announces them and reports the diagnostics of the two
parts; only what the first part alone reports at the end that is put after it is reported at the
semicolon instead, for the same cause. -/
theorem ofTokens_append_semicolon (table : PrecedenceTable) (before after : List Token)
    (semicolon : Token) (noEnd : ∀ token ∈ before, token.kind ≠ .eof)
    (separates : semicolon.kind = .semicolon) :
    let first := Run.ofTokens (.ofTable table) before
    let second := Run.ofTokens (.ofTable table) after
    let whole := Run.ofTokens (.ofTable table) (before ++ semicolon :: after)
    whole.items = first.items ++ second.items ∧
      whole.announced = first.announced ++ second.announced ∧
      whole.diagnostics =
        first.turns.filterMap (Turn.diagnosticBefore? semicolon) ++ second.diagnostics ∧
      ∀ turn ∈ first.turns, turn.Reports (ParseState.ofTokens before).upcoming := by
  intro first second whole
  obtain ⟨ending, ended, start⟩ := ParseState.ofTokens_of_getLast? fun token final =>
    noEnd token (List.mem_of_getLast? final)
  obtain ⟨behind, upcoming, fromBehind⟩ := exists_behind (.ofTable table) before after separates
  have meets : (Simulation.barrier (.ofTable table) before behind ended separates).meets
      (ParseState.ofTokens before) (ParseState.ofTokens (before ++ semicolon :: after)) := by
    rw [start]
    exact ⟨fun token member => member, rfl, upcoming, rfl⟩
  obtain ⟨fresh, freshUpcoming, outermost, joined⟩ := startingAt_barrier noEnd meets
  obtain ⟨sameItems, sameDiagnostics⟩ := fromBehind fresh freshUpcoming outermost
  have items : whole.items = first.items ++ second.items :=
    joined.items.trans (congrArg (first.items ++ ·) sameItems)
  refine ⟨items, ?_, ?_, ?_⟩
  · rw [announced_eq_events, announced_eq_events, announced_eq_events, events, events, events, items,
      List.map_append]
  · exact joined.diagnostics.trans (congrArg (_ ++ ·) sameDiagnostics)
  · rw [start]
    exact joined.reports

/-- The tokens of `def f(`. -/
def unfinishedTokens : List Token :=
  [.unplaced .defKeyword "def", .unplaced .identifier "f", .unplaced .openParen "("]

/-- `def f(` fails at its end, and in `def f(; x` at the semicolon; `x` is read all the same. -/
theorem ofTokens_append_semicolon_unfinishedTokens :
    (∀ token ∈ unfinishedTokens, token.kind ≠ .eof) ∧
      (Run.ofTokens (.ofTable .standard) unfinishedTokens).diagnostics =
        [⟨.notDue Parser.parameterNameDue "EOF", .unknown⟩] ∧
      (Run.ofTokens (.ofTable .standard) (unfinishedTokens ++ .unplaced .semicolon ";" ::
        [.unplaced .identifier "x"])).diagnostics =
          [⟨.notDue Parser.parameterNameDue ";", .unknown⟩] ∧
      (Run.ofTokens (.ofTable .standard) (unfinishedTokens ++ .unplaced .semicolon ";" ::
        [.unplaced .identifier "x"])).items = [.expression ⟨.anonymous, .reference "x"⟩] := by
  let start := ParseState.ofTokens unfinishedTokens
  let start' := ParseState.ofTokens [.unplaced .identifier "x"]
  have noEnd : ∀ token ∈ unfinishedTokens, token.kind ≠ .eof := by decide
  let behind := start.advance.advance.advance
  have noParameters : Parser.parameters behind =
      .failed ⟨.notDue Parser.parameterNameDue "EOF", .unknown⟩ behind [] := by
    rw [Parser.parameters_eq, Parser.expect_bind_of_ne (by decide)]
    rfl
  have noPrototype : Parser.prototype start.advance =
      .failed ⟨.notDue Parser.parameterNameDue "EOF", .unknown⟩ behind [] := by
    have name : start.advance.current.kind = .identifier := rfl
    have opens : start.advance.advance.current.kind = .openParen := rfl
    rw [Parser.prototype, Parser.expect_bind_of_kind name, Parser.expect_bind_of_kind opens,
      Parser.current_bind, if_neg (by decide), Parser.bind_apply, noParameters]
  have fails : Parser.item (.ofTable .standard) start =
      .failed ⟨.notDue Parser.parameterNameDue "EOF", .unknown⟩ behind [] := by
    rw [Parser.item, Parser.current_bind]
    show (Parser.definition _ >>= fun function => pure (Item.definition function)) start = _
    rw [Parser.bind_apply, Parser.definition, Parser.advance_bind, Parser.bind_apply, noPrototype]
  have chain : (Parser.chain (.ofTable .standard) 0 (.reference "x")).Yields start'.deeper.advance
      (.reference "x") start'.deeper.advance :=
    Parser.yields_chain.mpr (Or.inl ⟨by decide, rfl, rfl⟩)
  have expression : (Parser.expr (.ofTable .standard)).Yields start' (.reference "x")
      start'.advance :=
    Parser.yields_expr.mpr ⟨rfl, .reference "x", _, _,
      Parser.yields_operand_of_reference rfl (by decide), chain, rfl⟩
  obtain ⟨trace, reads⟩ : (Parser.item (.ofTable .standard)).Yields start'
      (.expression ⟨.anonymous, .reference "x"⟩) start'.advance :=
    Parser.yields_item.mpr
      (Or.inr (Or.inr ⟨by decide, by decide, .reference "x", expression, rfl⟩))
  have first : Run.ofTokens (.ofTable .standard) unfinishedTokens = _ :=
    startingAt_of_failed (by decide) (by decide) fails
  rw [startingAt_of_eof rfl] at first
  have second : Run.ofTokens (.ofTable .standard) [.unplaced .identifier "x"] = _ :=
    startingAt_of_parsed (by decide) (by decide) reads
  rw [startingAt_of_eof rfl] at second
  obtain ⟨items, _, diagnostics, _⟩ := ofTokens_append_semicolon .standard unfinishedTokens
    [.unplaced .identifier "x"] (.unplaced .semicolon ";") noEnd rfl
  rw [items, diagnostics, first, second]
  exact ⟨noEnd, rfl, rfl, rfl⟩

end Run

end OpLang
