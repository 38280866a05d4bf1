/-
**Runs, turn by turn.**

What the first turn of a run does is told by the current token and by the reply of the parser of
items: one equation for each kind of turn says how the run goes on. `turns_induction` is the induction
over the turns of a run: a property of the states in which turns start holds everywhere if it passes
from the state after each kind of turn to the state before it.
-/

import OpLang.Program.Run

namespace OpLang.Run

variable {grammar : Grammar} {state after : ParseState} {trace : List Step}

/-! ### The first turn -/

/-- A semicolon is a turn of its own, and the run goes on behind it. -/
theorem startingAt_of_semicolon (separates : state.current.kind = .semicolon) :
    Run.startingAt grammar state =
      ⟨.separator state :: (Run.startingAt grammar state.advance).turns,
        (Run.startingAt grammar state.advance).final⟩ := by
  have turn : Turn.startingAt grammar state = .separator state := by
    unfold Turn.startingAt
    rw [if_pos separates]
  rw [startingAt_of_ne_eof (by simp [separates]), turn]
  rfl

/-- An item that is parsed is a turn of its own, and the run goes on after it. -/
theorem startingAt_of_parsed {item : Item} (begins : state.current.kind ≠ .semicolon)
    (more : state.current.kind ≠ .eof)
    (reply : Parser.item grammar state = .parsed item after trace) :
    Run.startingAt grammar state =
      ⟨.completed state item trace after :: (Run.startingAt grammar after).turns,
        (Run.startingAt grammar after).final⟩ := by
  have turn : Turn.startingAt grammar state = .completed state item trace after := by
    unfold Turn.startingAt
    rw [if_neg begins, reply]
  rw [startingAt_of_ne_eof more, turn]
  rfl

/-- An item that fails is a turn of its own, and the run goes on behind the token at which its parser
stopped. -/
theorem startingAt_of_failed {diagnostic : Diagnostic} (begins : state.current.kind ≠ .semicolon)
    (more : state.current.kind ≠ .eof)
    (reply : Parser.item grammar state = .failed diagnostic after trace) :
    Run.startingAt grammar state =
      ⟨.abandoned state diagnostic trace after :: (Run.startingAt grammar after.advance).turns,
        (Run.startingAt grammar after.advance).final⟩ := by
  have turn : Turn.startingAt grammar state = .abandoned state diagnostic trace after := by
    unfold Turn.startingAt
    rw [if_neg begins, reply]
  rw [startingAt_of_ne_eof more, turn]
  rfl

/-! ### Induction -/

/-- **Induction over the turns of a run.** -/
theorem turns_induction (grammar : Grammar) {motive : ParseState → Prop}
    (ended : ∀ state : ParseState, state.current.kind = .eof → motive state)
    (separator : ∀ state : ParseState, state.current.kind = .semicolon → motive state.advance →
      motive state)
    (completed : ∀ (state after : ParseState) (item : Item) (trace : List Step),
      state.current.kind ≠ .semicolon → state.current.kind ≠ .eof →
      Parser.item grammar state = .parsed item after trace → motive after → motive state)
    (abandoned : ∀ (state after : ParseState) (diagnostic : Diagnostic) (trace : List Step),
      state.current.kind ≠ .semicolon → state.current.kind ≠ .eof →
      Parser.item grammar state = .failed diagnostic after trace → motive after.advance →
      motive state)
    (state : ParseState) : motive state := by
  induction tokens : state.remaining using Nat.strongRecOn generalizing state with
  | ind tokens ih =>
    subst tokens
    by_cases more : state.current.kind = .eof
    · exact ended state more
    · have fewer : (Turn.startingAt grammar state).next.remaining < state.remaining :=
        Turn.remaining_next more
      unfold Turn.startingAt at fewer
      by_cases separates : state.current.kind = .semicolon
      · rw [if_pos separates] at fewer
        exact separator state separates (ih _ fewer _ rfl)
      · rw [if_neg separates] at fewer
        cases reply : Parser.item grammar state with
        | parsed item after trace =>
          rw [reply] at fewer
          exact completed state after item trace separates more reply (ih _ fewer _ rfl)
        | failed diagnostic after trace =>
          rw [reply] at fewer
          exact abandoned state after diagnostic trace separates more reply (ih _ fewer _ rfl)

end OpLang.Run
