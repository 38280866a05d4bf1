/-
**Parsing a program.**

A program is read in turns. A turn starts at the current token: a semicolon is skipped, and anything
else is parsed as an item. An item that fails is reported, and the one token at which its parser
stopped is skipped. Turns follow each other until the current token is an end, and since every turn
uses up a token, they come to it. The items, diagnostics and events of a run are those of its turns.
-/

import OpLang.Item.Parser

namespace OpLang

/-- One turn, with the state where it started. -/
inductive Turn where
  /-- A semicolon was skipped. -/
  | separator (start : ParseState)
  /-- An item was complete. -/
  | completed (start : ParseState) (item : Item) (trace : List Step) (after : ParseState)
  /-- An item failed, and the token at which its parser stopped was skipped. -/
  | abandoned (start : ParseState) (diagnostic : Diagnostic) (trace : List Step)
    (after : ParseState)

namespace Turn

/-- The state where a turn started. -/
def start : Turn → ParseState
  | .separator start => start
  | .completed start _ _ _ => start
  | .abandoned start _ _ _ => start

/-- The state where the next turn starts. -/
def next : Turn → ParseState
  | .separator start => start.advance
  | .completed _ _ _ after => after
  | .abandoned _ _ _ after => after.advance

/-- The item that a turn completed. -/
def item? : Turn → Option Item
  | .completed _ item _ _ => some item
  | _ => none

/-- The diagnostic of a turn that was abandoned. -/
def diagnostic? : Turn → Option Diagnostic
  | .abandoned _ diagnostic _ _ => some diagnostic
  | _ => none

/-- What a turn announces: the completion of an item. -/
def event? (turn : Turn) : Option Event := turn.item?.map Item.event

/-- The turn that starts in a state. -/
def startingAt (grammar : Grammar) (state : ParseState) : Turn :=
  if state.current.kind = .semicolon then .separator state
  else
    match Parser.item grammar state with
    | .parsed item after trace => .completed state item trace after
    | .failed diagnostic after trace => .abandoned state diagnostic trace after

/-- **Every turn uses up a token.** -/
theorem remaining_next {grammar : Grammar} {state : ParseState} (more : state.current.kind ≠ .eof) :
    (Turn.startingAt grammar state).next.remaining < state.remaining := by
  have positive : 0 < state.remaining := ParseState.remaining_pos more
  have bounded := Parser.item_leavesFewer grammar state
  unfold Turn.startingAt
  split
  · show state.advance.remaining < state.remaining
    simp
    omega
  · cases reply : Parser.item grammar state with
    | parsed item after trace =>
      rw [reply] at bounded
      exact bounded
    | failed diagnostic after trace =>
      rw [reply] at bounded
      have bounded : after.remaining ≤ state.remaining := bounded
      show after.advance.remaining < state.remaining
      simp
      omega

end Turn

/-- The turns of a program and the state at its end. -/
structure Run where
  turns : List Turn
  final : ParseState

namespace Run

/-- **The run from a state** to the first end among the tokens to come. -/
def startingAt (grammar : Grammar) (state : ParseState) : Run :=
  if _ : state.current.kind = .eof then ⟨[], state⟩
  else
    let rest := Run.startingAt grammar (Turn.startingAt grammar state).next
    ⟨Turn.startingAt grammar state :: rest.turns, rest.final⟩
termination_by state.remaining
decreasing_by exact Turn.remaining_next ‹_›

/-- The run of a list of tokens. -/
def ofTokens (grammar : Grammar) (tokens : List Token) : Run :=
  Run.startingAt grammar (ParseState.ofTokens tokens)

/-- The items of a run, in order. -/
def items (run : Run) : List Item := run.turns.filterMap Turn.item?

/-- The diagnostics of a run, in order. -/
def diagnostics (run : Run) : List Diagnostic := run.turns.filterMap Turn.diagnostic?

/-- The events as they were announced, turn after turn. -/
def announced (run : Run) : List Event := run.turns.filterMap Turn.event?

/-- The events of the items. -/
def events (run : Run) : List Event := run.items.map Item.event

/-- Whether nothing was reported. -/
def isClean (run : Run) : Bool := run.diagnostics.isEmpty

/-- At an end there are no turns. -/
theorem startingAt_of_eof {grammar : Grammar} {state : ParseState}
    (ended : state.current.kind = .eof) : Run.startingAt grammar state = ⟨[], state⟩ := by
  rw [Run.startingAt, dif_pos ended]

/-- Before an end, the run is one turn and the run from the state after it. -/
theorem startingAt_of_ne_eof {grammar : Grammar} {state : ParseState}
    (more : state.current.kind ≠ .eof) :
    Run.startingAt grammar state =
      ⟨Turn.startingAt grammar state ::
          (Run.startingAt grammar (Turn.startingAt grammar state).next).turns,
        (Run.startingAt grammar (Turn.startingAt grammar state).next).final⟩ := by
  rw [Run.startingAt, dif_neg more]

/-- What was announced are the events of the items. -/
theorem announced_eq_events (run : Run) : run.announced = run.events := by
  unfold announced events items
  rw [List.map_filterMap]
  rfl

end Run

end OpLang
