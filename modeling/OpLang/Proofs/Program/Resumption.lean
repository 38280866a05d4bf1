/-
**Recovery leaves no trace.**

A boundary is a state in which the driver looks at the current token to tell what begins there: the
start of a run, and the state after each of its turns. `Run.Reaches grammar state turns boundary` says
that the driver, started in a state, comes to a boundary by the given turns, whether they skipped
semicolons, completed items or were abandoned.

* `Reaches.takes`: on the way to a boundary the cursor has only moved over tokens, and as many
  expressions are open as at the start.
* `Reaches.turns_eq`: a run is the turns before a boundary and the run from there.
* `ofTokens_resumes`: so from a boundary on a run does what the run of the tokens from there on does.
-/

import OpLang.Proofs.Program.Account
import OpLang.Proofs.Program.Simulation

namespace OpLang.Run

variable {grammar : Grammar} {state boundary : ParseState} {turns : List Turn}

/-! ### Boundaries -/

/-- Whether the driver, started in a state, takes the given turns and then stands at a boundary. -/
inductive Reaches (grammar : Grammar) : ParseState → List Turn → ParseState → Prop where
  | start {state : ParseState} : Reaches grammar state [] state
  | turn {state boundary : ParseState} {turns : List Turn} (more : state.current.kind ≠ .eof)
      (others : Reaches grammar (Turn.startingAt grammar state).next turns boundary) :
      Reaches grammar state (Turn.startingAt grammar state :: turns) boundary

namespace Reaches

/-- The cursor moves forward to a boundary, and what is opened on the way is closed again. -/
theorem takes (reaches : Reaches grammar state turns boundary) :
    ∃ taken, state.Takes taken boundary := by
  induction reaches with
  | start => exact ⟨[], .nothing⟩
  | @turn state boundary turns more _ ih =>
    obtain ⟨taken, consumes⟩ := Turn.exists_consumes grammar more
    obtain ⟨others, onward⟩ := ih
    have first := consumes.takes
    rw [Turn.start_startingAt] at first
    exact ⟨taken ++ others, first.trans onward⟩

/-- **A run is the turns before a boundary and the run from there.** -/
theorem turns_eq (reaches : Reaches grammar state turns boundary) :
    (Run.startingAt grammar state).turns = turns ++ (Run.startingAt grammar boundary).turns ∧
      (Run.startingAt grammar state).final = (Run.startingAt grammar boundary).final := by
  induction reaches with
  | start => exact ⟨rfl, rfl⟩
  | turn more _ ih =>
    obtain ⟨turns, final⟩ := ih
    rw [startingAt_of_ne_eof more]
    exact ⟨congrArg (_ :: ·) turns, final⟩

/-- There is a boundary after every turn of a run. -/
theorem exists_of_turns_eq {before after : List Turn}
    (turns : (Run.startingAt grammar state).turns = before ++ after) :
    ∃ boundary, Reaches grammar state before boundary := by
  induction before generalizing state with
  | nil => exact ⟨state, .start⟩
  | cons turn before ih =>
    by_cases ended : state.current.kind = .eof
    · rw [startingAt_of_eof ended] at turns
      cases turns
    · rw [startingAt_of_ne_eof ended] at turns
      obtain ⟨rfl, others⟩ := List.cons.inj turns
      obtain ⟨boundary, reaches⟩ := ih others
      exact ⟨boundary, .turn ended reaches⟩

end Reaches

/-! ### The run from a boundary -/

/-- From where the cursor has moved over tokens, and no expression is open, the run is that of the
tokens which are left. -/
theorem startingAt_of_takes (grammar : Grammar) {tokens taken : List Token}
    (takes : (ParseState.ofTokens tokens).Takes taken boundary) :
    (Run.ofTokens grammar (tokens.drop taken.length)).items =
        (Run.startingAt grammar boundary).items ∧
      (Run.ofTokens grammar (tokens.drop taken.length)).diagnostics =
        (Run.startingAt grammar boundary).diagnostics := by
  have upcoming := takes.upcoming_eq
  by_cases more : tokens.drop taken.length = []
  · -- Only the end that was put behind the tokens is left, and neither run goes on there.
    have lengths := congrArg List.length upcoming
    have padded : (ParseState.ofTokens tokens).upcoming.length ≤ tokens.length + 1 := by
      rcases ParseState.upcoming_ofTokens tokens with ⟨_, _, _, _, same⟩ | ⟨_, _, _, same⟩
      · rw [same]
        exact Nat.le_succ _
      · rw [same]
        exact Nat.le_of_eq List.length_append
    have fewer := List.drop_eq_nil_iff.mp more
    rw [List.length_append, boundary.length_upcoming] at lengths
    have last : boundary.remaining = 0 := by omega
    rw [more, ofTokens, startingAt_of_eof rfl,
      startingAt_of_eof (ParseState.kind_of_remaining_eq_zero last)]
    exact ⟨rfl, rfl⟩
  · refine startingAt_congr ?_ takes.depth_eq.symm
    rw [ParseState.upcoming_ofTokens_drop more, upcoming, List.drop_left]

/-- **Recovery leaves no trace.** After any turns of a run the driver stands at a boundary. Whatever it
does from there on is what it does on the tokens from there on alone: it completes the same items,
announces them and reports the same diagnostics. The whole run has done before what its turns up to the
boundary did, and that is all. -/
theorem ofTokens_resumes (table : PrecedenceTable) (tokens : List Token) :
    let run := Run.ofTokens (.ofTable table) tokens
    (∀ before after, run.turns = before ++ after →
      ∃ boundary, Reaches (.ofTable table) (.ofTokens tokens) before boundary) ∧
    ∀ turns boundary, Reaches (.ofTable table) (.ofTokens tokens) turns boundary →
      let onward := Run.startingAt (.ofTable table) boundary
      let fresh := Run.ofTokens (.ofTable table) (tokens.drop boundary.stream.consumed)
      run.turns = turns ++ onward.turns ∧ run.final = onward.final ∧
        (onward.items = fresh.items ∧ onward.diagnostics = fresh.diagnostics ∧
          onward.announced = fresh.announced) ∧
        run.items = turns.filterMap Turn.item? ++ fresh.items ∧
        run.diagnostics = turns.filterMap Turn.diagnostic? ++ fresh.diagnostics ∧
        run.announced = turns.filterMap Turn.event? ++ fresh.announced := by
  intro run
  refine ⟨fun before after turns => Reaches.exists_of_turns_eq turns, ?_⟩
  intro turns boundary reaches onward fresh
  obtain ⟨taken, takes⟩ := reaches.takes
  have consumed : boundary.stream.consumed = taken.length := by
    rw [takes.consumed_eq, ParseState.consumed_ofTokens, Nat.zero_add]
  obtain ⟨items, diagnostics⟩ := startingAt_of_takes (.ofTable table) takes
  rw [← consumed] at items diagnostics
  have announced : onward.announced = fresh.announced := by
    rw [announced_eq_events, announced_eq_events, events, events, ← items]
  obtain ⟨whole, final⟩ := reaches.turns_eq
  have whole : run.turns = turns ++ onward.turns := whole
  refine ⟨whole, final, ⟨items.symm, diagnostics.symm, announced⟩, ?_, ?_, ?_⟩
  · rw [Run.items, whole, List.filterMap_append, items]
    rfl
  · rw [Run.diagnostics, whole, List.filterMap_append, diagnostics]
    rfl
  · rw [Run.announced, whole, List.filterMap_append, ← announced]
    rfl

/-- The tokens of `(f(; x`. -/
def openCallTokens : List Token :=
  [.unplaced .openParen "(", .unplaced .identifier "f", .unplaced .openParen "(",
    .unplaced .semicolon ";", .unplaced .identifier "x"]

/-- In `(f(; x` three expressions are open where the first item fails, and the run goes on behind the
semicolon as that of `x` alone. -/
theorem ofTokens_resumes_openCallTokens :
    ∃ turns boundary, Reaches (.ofTable .empty) (.ofTokens openCallTokens) turns boundary ∧
      turns.filterMap Turn.diagnostic? = [⟨.noExpression ";", .unknown⟩] ∧
      boundary.stream.consumed = 4 ∧
      (Run.ofTokens (.ofTable .empty) openCallTokens).items =
        [.expression ⟨.anonymous, .reference "x"⟩] := by
  let start := ParseState.ofTokens openCallTokens
  let stopped : ParseState :=
    ⟨⟨3, [.unplaced .semicolon ";", .unplaced .identifier "x"], .atEnd .unknown, rfl⟩, 0⟩
  have turn : ∃ trace, Turn.startingAt (.ofTable .empty) start =
      .abandoned start ⟨.noExpression ";", .unknown⟩ trace stopped := ⟨_, by cbv⟩
  obtain ⟨trace, turn⟩ := turn
  have reaches : Reaches (.ofTable .empty) start [Turn.startingAt (.ofTable .empty) start]
      stopped.advance := by
    refine .turn (by decide) ?_
    rw [turn]
    exact .start
  obtain ⟨_, _, _, items, _⟩ := (ofTokens_resumes .empty openCallTokens).2 _ _ reaches
  have alone : (Run.ofTokens (.ofTable .empty) [.unplaced .identifier "x"]).items =
      [.expression ⟨.anonymous, .reference "x"⟩] := by cbv
  rw [turn] at reaches items
  exact ⟨_, stopped.advance, reaches, rfl, rfl, items.trans alone⟩

end OpLang.Run
