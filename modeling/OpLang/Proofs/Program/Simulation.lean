/-
**Whole runs in step.**

A simulation is strict if tokens that are alike are always of the same kind and both runs may move on
at every token. From states that a strict simulation relates, whole runs take turns of the same kinds
(`turns_mirror`), by induction over the turns of the first run. So they complete the same items, up to
the renaming of names, and report the same diagnostics at tokens that are alike (`runs_mirror`).

The first simulation is that of two states with the same tokens to come (`sameUpcoming`). It says
that a run depends on nothing else than these tokens and the depth (`Run.startingAt_congr`).
-/

import Mathlib.Data.List.Forall2
import OpLang.Proofs.Item.Simulation
import OpLang.Proofs.Program.Turns

namespace OpLang

namespace Simulation

variable {grammar grammar' : Grammar} {simulation : Simulation grammar grammar'}
variable {state state' : ParseState}

/-! ### Strict simulations -/

/-- Whether a simulation keeps the kinds of all tokens, ends included. -/
structure IsStrict (simulation : Simulation grammar grammar') : Prop where
  kind_eq : ∀ {token token' : Token}, simulation.alike token token' → token'.kind = token.kind
  advance : ∀ {state state' : ParseState}, simulation.meets state state' →
    simulation.meets state.advance state'.advance

/-- Whether two diagnostics are the same one raised at tokens that are alike. -/
def Corresponds (simulation : Simulation grammar grammar')
    (diagnostic diagnostic' : Diagnostic) : Prop :=
  ∃ token token', simulation.alike token token' ∧ diagnostic = diagnostic.raisedAt token ∧
    diagnostic' = diagnostic.raisedAt token'

/-- Whether as many diagnostics correspond to each other one by one. -/
def CorrespondAll (simulation : Simulation grammar grammar')
    (diagnostics diagnostics' : List Diagnostic) : Prop :=
  ∃ pairs : List (Diagnostic × Diagnostic),
    (∀ pair ∈ pairs, simulation.Corresponds pair.1 pair.2) ∧
      diagnostics = pairs.map Prod.fst ∧ diagnostics' = pairs.map Prod.snd

theorem CorrespondAll.cons {diagnostic diagnostic' : Diagnostic}
    {diagnostics diagnostics' : List Diagnostic}
    (first : simulation.Corresponds diagnostic diagnostic')
    (others : simulation.CorrespondAll diagnostics diagnostics') :
    simulation.CorrespondAll (diagnostic :: diagnostics) (diagnostic' :: diagnostics') := by
  obtain ⟨pairs, correspond, rfl, rfl⟩ := others
  refine ⟨(diagnostic, diagnostic') :: pairs, ?_, rfl, rfl⟩
  intro pair member
  rcases List.mem_cons.mp member with rfl | further
  · exact first
  · exact correspond pair further

theorem Blames.corresponds {diagnostic diagnostic' : Diagnostic} {after after' : ParseState}
    (blames : simulation.Blames diagnostic after diagnostic' after')
    (meets : simulation.meets after after') : simulation.Corresponds diagnostic diagnostic' := by
  cases blames with
  | current here =>
    refine ⟨after.current, after'.current, simulation.current meets, ?_, ?_⟩
    · rw [Diagnostic.raisedAt_raisedAt]
    · rw [Diagnostic.raisedAt_raisedAt]
  | @number token token' _ _ alike kind => exact ⟨token, token', alike, rfl, rfl⟩

theorem CorrespondAll.eq_of_alike {diagnostics diagnostics' : List Diagnostic}
    (correspond : simulation.CorrespondAll diagnostics diagnostics')
    (same : ∀ {token token' : Token}, simulation.alike token token' → token' = token) :
    diagnostics' = diagnostics := by
  obtain ⟨pairs, each, rfl, rfl⟩ := correspond
  refine List.map_congr_left fun pair member => ?_
  obtain ⟨token, token', alike, raised, raised'⟩ := each pair member
  rw [raised', same alike]
  exact raised.symm

/-! ### Turns and runs in step -/

/-- Whether two turns are of one kind: both skip a semicolon, or they complete an item and its image, or
they report diagnostics of the same cause and stop in related states. -/
inductive InStep (simulation : Simulation grammar grammar') : Turn → Turn → Prop where
  | separator {start start' : ParseState} : InStep simulation (.separator start) (.separator start')
  | completed {start start' after after' : ParseState} {item : Item} {trace trace' : List Step} :
      InStep simulation (.completed start item trace after)
        (.completed start' (item.renamed simulation.rename) trace' after')
  | abandoned {start start' after after' : ParseState} {diagnostic diagnostic' : Diagnostic}
      {trace trace' : List Step} (blames : simulation.Blames diagnostic after diagnostic' after')
      (meets : simulation.meets after after') :
      InStep simulation (.abandoned start diagnostic trace after)
        (.abandoned start' diagnostic' trace' after')

/-- **Whole runs take their turns in step** under a strict simulation. -/
theorem turns_mirror (strict : simulation.IsStrict) (meets : simulation.meets state state') :
    List.Forall₂ simulation.InStep (Run.startingAt grammar state).turns
        (Run.startingAt grammar' state').turns ∧
      simulation.meets (Run.startingAt grammar state).final
        (Run.startingAt grammar' state').final := by
  induction state using Run.turns_induction grammar generalizing state' with
  | ended state ended =>
    have ended' := (strict.kind_eq (simulation.current meets)).trans ended
    rw [Run.startingAt_of_eof ended, Run.startingAt_of_eof ended']
    exact ⟨.nil, meets⟩
  | separator state separates ih =>
    have separates' := (strict.kind_eq (simulation.current meets)).trans separates
    obtain ⟨turns, final⟩ := ih (strict.advance meets)
    rw [Run.startingAt_of_semicolon separates, Run.startingAt_of_semicolon separates']
    exact ⟨.cons .separator turns, final⟩
  | completed state after item trace begins more reply ih =>
    have kind := strict.kind_eq (simulation.current meets)
    obtain ⟨after', trace', reply', meets'⟩ := (simulation.item_mirrors meets).of_parsed reply
    obtain ⟨turns, final⟩ := ih meets'
    rw [Run.startingAt_of_parsed begins more reply,
      Run.startingAt_of_parsed (kind ▸ begins) (kind ▸ more) reply']
    exact ⟨.cons .completed turns, final⟩
  | abandoned state after diagnostic trace begins more reply ih =>
    have kind := strict.kind_eq (simulation.current meets)
    obtain ⟨diagnostic', after', trace', reply', blames, meets'⟩ :=
      (simulation.item_mirrors meets).of_failed reply
    obtain ⟨turns, final⟩ := ih (strict.advance meets')
    rw [Run.startingAt_of_failed begins more reply,
      Run.startingAt_of_failed (kind ▸ begins) (kind ▸ more) reply']
    exact ⟨.cons (.abandoned blames meets') turns, final⟩

theorem items_of_inStep {turns turns' : List Turn}
    (inStep : List.Forall₂ simulation.InStep turns turns') :
    turns'.filterMap Turn.item? =
      (turns.filterMap Turn.item?).map (Item.renamed simulation.rename) := by
  induction inStep with
  | nil => rfl
  | cons first _ ih =>
    cases first with
    | separator => exact ih
    | @completed _ _ _ _ item => exact congrArg (item.renamed simulation.rename :: ·) ih
    | abandoned _ _ => exact ih

theorem diagnostics_of_inStep {turns turns' : List Turn}
    (inStep : List.Forall₂ simulation.InStep turns turns') :
    simulation.CorrespondAll (turns.filterMap Turn.diagnostic?)
      (turns'.filterMap Turn.diagnostic?) := by
  induction inStep with
  | nil => exact ⟨[], nofun, rfl, rfl⟩
  | cons first _ ih =>
    cases first with
    | separator => exact ih
    | completed => exact ih
    | abandoned blames meets => exact .cons (blames.corresponds meets) ih

/-- **Whole runs mirror each other** under a strict simulation. -/
theorem runs_mirror (strict : simulation.IsStrict) (meets : simulation.meets state state') :
    (Run.startingAt grammar' state').items =
        (Run.startingAt grammar state).items.map (Item.renamed simulation.rename) ∧
      simulation.CorrespondAll (Run.startingAt grammar state).diagnostics
        (Run.startingAt grammar' state').diagnostics ∧
      simulation.meets (Run.startingAt grammar state).final
        (Run.startingAt grammar' state').final := by
  obtain ⟨turns, final⟩ := turns_mirror strict meets
  exact ⟨items_of_inStep turns, diagnostics_of_inStep turns, final⟩

/-- **Runs agree** under a strict simulation that keeps names and relates tokens to themselves only. -/
theorem runs_agree (strict : simulation.IsStrict) (unnamed : simulation.rename = id)
    (same : ∀ {token token' : Token}, simulation.alike token token' → token' = token)
    (meets : simulation.meets state state') :
    (Run.startingAt grammar' state').items = (Run.startingAt grammar state).items ∧
      (Run.startingAt grammar' state').diagnostics =
        (Run.startingAt grammar state).diagnostics := by
  obtain ⟨items, diagnostics, _⟩ := runs_mirror strict meets
  have unchanged : Item.renamed simulation.rename = id := by
    rw [unnamed]
    exact funext Item.renamed_id
  rw [items, unchanged, List.map_id]
  exact ⟨rfl, diagnostics.eq_of_alike same⟩

/-! ### The same tokens to come -/

/-- The simulation of states with the same tokens to come and the same depth. -/
def sameUpcoming (grammar : Grammar) : Simulation grammar grammar where
  rename := id
  alike token token' := token' = token
  meets state state' := state'.upcoming = state.upcoming ∧ state'.depth = state.depth
  kind_eq_or_ends := by
    rintro token token' rfl
    exact Or.inl rfl
  name_eq := fun same _ => congrArg Token.value same
  number_eq := fun same _ => congrArg Token.value same
  operator_eq := fun same _ => congrArg Token.value same
  loose_iff := by
    rintro token token' rfl
    rfl
  looser_iff := by
    rintro token token' other other' rfl rfl
    rfl
  isFull_eq := by
    rintro state state' ⟨_, depth⟩
    rw [depth]
  current := fun ⟨upcoming, _⟩ => ParseState.current_congr upcoming
  advance := fun ⟨upcoming, depth⟩ _ => ⟨ParseState.upcoming_advance_congr upcoming, depth⟩
  deeper := fun ⟨upcoming, depth⟩ => ⟨upcoming, congrArg (· + 1) depth⟩
  shallower := fun ⟨upcoming, depth⟩ => ⟨upcoming, congrArg (· - 1) depth⟩

theorem isStrict_sameUpcoming (grammar : Grammar) : (sameUpcoming grammar).IsStrict where
  kind_eq := fun same => congrArg Token.kind same
  advance := fun ⟨upcoming, depth⟩ => ⟨ParseState.upcoming_advance_congr upcoming, depth⟩

end Simulation

/-- **A run depends on the tokens to come and the depth,** and on nothing that was read before. -/
theorem Run.startingAt_congr {grammar : Grammar} {state state' : ParseState}
    (upcoming : state'.upcoming = state.upcoming) (depth : state'.depth = state.depth) :
    (Run.startingAt grammar state').items = (Run.startingAt grammar state).items ∧
      (Run.startingAt grammar state').diagnostics =
        (Run.startingAt grammar state).diagnostics := by
  have meets : (Simulation.sameUpcoming grammar).meets state state' := ⟨upcoming, depth⟩
  exact Simulation.runs_agree (Simulation.isStrict_sameUpcoming grammar) rfl (fun same => same) meets

end OpLang
