/-
**A run accounts for every token.**

A turn consumes the tokens over which it moves the cursor: a skipped semicolon, the tokens of a complete
item, or those of a failed item and the token skipped after it (`Turn.Consumes`). There is at least one,
also where an item fails at the last token, which is not skipped: the parser has taken some then.

`Run.Leads grammar state turns parts final` says that the driver, started in a state, takes the given
turns, each over its own part of the tokens, and halts at an end. `exists_leads` proves that it does,
from every state: each turn leaves less to come. All the rest is read off the turns by induction:

* the parts, one after the other, are the tokens before the cursor (`Leads.takes`);
* a turn completes an item or reports a diagnostic or neither, and it consumes for it a token that is
  neither an end nor a semicolon (`Leads.outcomes_le`).
-/

import Mathlib.Algebra.GroupWithZero.Nat
import OpLang.Proofs.Parser.Walk
import OpLang.Proofs.Program.Turns

namespace OpLang

/-! ### Cursors -/

namespace ParseState

/-- At the start of a list of tokens none has been read. -/
theorem consumed_ofTokens (tokens : List Token) : (ofTokens tokens).stream.consumed = 0 := by
  show (TokenStream.ofList tokens).consumed = 0
  unfold TokenStream.ofList
  split
  · split <;> rfl
  · rfl

theorem consumed_advance {state : ParseState} (more : 0 < state.remaining) :
    state.advance.stream.consumed = state.stream.consumed + 1 := by
  obtain ⟨⟨consumed, pending, last, ends⟩, depth⟩ := state
  cases pending with
  | nil => exact absurd more (Nat.lt_irrefl 0)
  | cons token others => rfl

/-- The cursor counts the tokens that it moves over. -/
theorem Takes.consumed_eq {state after : ParseState} {taken : List Token}
    (takes : state.Takes taken after) :
    after.stream.consumed = state.stream.consumed + taken.length := by
  induction takes with
  | nothing => rfl
  | token more _ ih => rw [ih, consumed_advance more, List.length_cons]; omega

/-- The first token that is moved over is the current one. -/
theorem Takes.current_mem {state after : ParseState} {taken : List Token}
    (takes : state.Takes taken after) (nonempty : taken ≠ []) : state.current ∈ taken := by
  cases takes with
  | nothing => exact absurd rfl nonempty
  | token _ _ => exact List.mem_cons_self

/-- Moving the cursor leaves the last token of the stream as it is. -/
theorem Takes.last_eq {state after : ParseState} {taken : List Token}
    (takes : state.Takes taken after) : after.stream.last = state.stream.last := by
  induction takes with
  | nothing => rfl
  | @token state after taken more _ ih =>
    rw [ih]
    obtain ⟨⟨consumed, pending, ending, ends⟩, depth⟩ := state
    cases pending <;> rfl

end ParseState

/-! ### The tokens of a turn -/

namespace Turn

/-- Whether a turn moves the cursor over exactly the given tokens, at least one: a semicolon that is
skipped, a complete item, or a failed item with the token that is skipped after it, unless its parser
stopped at the last token. -/
inductive Consumes : Turn → List Token → Prop where
  | separator {start : ParseState} (separates : start.current.kind = .semicolon) :
      Consumes (.separator start) [start.current]
  | completed {start after : ParseState} {item : Item} {trace : List Step} {taken : List Token}
      (takes : start.Takes taken after) (nonempty : taken ≠ []) :
      Consumes (.completed start item trace after) taken
  | skipped {start after : ParseState} {diagnostic : Diagnostic} {trace : List Step}
      {taken : List Token} (takes : start.Takes taken after) (more : 0 < after.remaining) :
      Consumes (.abandoned start diagnostic trace after) (taken ++ [after.current])
  | atLast {start after : ParseState} {diagnostic : Diagnostic} {trace : List Step}
      {taken : List Token} (takes : start.Takes taken after) (last : after.remaining = 0)
      (nonempty : taken ≠ []) :
      Consumes (.abandoned start diagnostic trace after) taken

namespace Consumes

variable {turn : Turn} {taken : List Token}

theorem takes (consumes : turn.Consumes taken) : turn.start.Takes taken turn.next := by
  cases consumes with
  | @separator start separates =>
    have inner : start.current.kind ≠ .eof := by simp [separates]
    exact (ParseState.Takes.current inner : start.Takes [start.current] start.advance)
  | completed takes _ => exact takes
  | skipped takes more => exact takes.trans (.token more .nothing)
  | @atLast start after _ _ taken takes last _ =>
    show start.Takes taken after.advance
    rw [(ParseState.advance_of_remaining_eq_zero last).1]
    exact takes

theorem ne_nil (consumes : turn.Consumes taken) : taken ≠ [] := by
  cases consumes with
  | separator _ => exact List.cons_ne_nil _ _
  | completed _ nonempty => exact nonempty
  | skipped _ _ => exact List.append_ne_nil_of_right_ne_nil _ (List.cons_ne_nil _ _)
  | atLast _ _ nonempty => exact nonempty

end Consumes

@[simp]
theorem start_startingAt (grammar : Grammar) (state : ParseState) :
    (Turn.startingAt grammar state).start = state := by
  unfold Turn.startingAt
  split
  · rfl
  · cases Parser.item grammar state <;> rfl

/-- **A turn consumes tokens.** -/
theorem exists_consumes (grammar : Grammar) {state : ParseState}
    (more : state.current.kind ≠ .eof) :
    ∃ taken, (Turn.startingAt grammar state).Consumes taken := by
  have bounded := Parser.item_leavesFewer grammar state
  unfold Turn.startingAt
  by_cases separates : state.current.kind = .semicolon
  · rw [if_pos separates]
    exact ⟨_, .separator separates⟩
  · rw [if_neg separates]
    cases reply : Parser.item grammar state with
    | parsed item after trace =>
      obtain ⟨taken, takes⟩ := (Parser.item_walks grammar state).of_parsed reply
      refine ⟨taken, .completed takes ?_⟩
      rintro rfl
      cases takes
      rw [reply] at bounded
      exact Nat.lt_irrefl _ bounded
    | failed diagnostic after trace =>
      obtain ⟨taken, takes, _⟩ := (Parser.item_walks grammar state).of_failed reply
      by_cases further : 0 < after.remaining
      · exact ⟨_, .skipped takes further⟩
      · -- The turn did not start at the last token, so its parser has moved up to there.
        have last : after.remaining = 0 := Nat.eq_zero_of_not_pos further
        refine ⟨taken, .atLast takes last ?_⟩
        rintro rfl
        cases takes
        exact more (ParseState.kind_of_remaining_eq_zero last)

/-- The number of items and diagnostics that a turn adds to a run. -/
def outcomes (turn : Turn) : Nat :=
  turn.item?.toList.length + turn.diagnostic?.toList.length

/-- **A turn adds one item or one diagnostic at most,** and none if it skips a semicolon. -/
theorem outcomes_le_one (turn : Turn) : turn.outcomes ≤ 1 := by
  cases turn <;> simp [outcomes, item?, diagnostic?]

/-- For what it adds, a turn consumes a token that is neither an end nor a semicolon. -/
theorem outcomes_le {grammar : Grammar} {state : ParseState} {taken : List Token}
    (more : state.current.kind ≠ .eof) (consumes : (Turn.startingAt grammar state).Consumes taken) :
    (Turn.startingAt grammar state).outcomes ≤ taken.countP (·.kind.isInner) := by
  by_cases separates : state.current.kind = .semicolon
  · have silent : (Turn.startingAt grammar state).outcomes = 0 := by
      unfold Turn.startingAt
      rw [if_pos separates]
      rfl
    rw [silent]
    exact Nat.zero_le _
  · have first : state.current ∈ taken := by
      rw [← start_startingAt grammar state]
      exact consumes.takes.current_mem consumes.ne_nil
    have inner : state.current.kind.isInner = true := by
      cases kind : state.current.kind <;> simp_all [Token.Kind.isInner]
    have counted : 0 < taken.countP (·.kind.isInner) :=
      List.countP_pos_iff.mpr ⟨state.current, first, inner⟩
    exact Nat.le_trans (outcomes_le_one _) counted

end Turn

namespace Run

variable {grammar : Grammar} {state final : ParseState} {turns : List Turn}
variable {parts : List (List Token)}

/-! ### The turns of a run -/

/-- Whether the driver, started in a state, takes the given turns one after the other, each over its
own part of the tokens, and halts at an end. -/
inductive Leads (grammar : Grammar) :
    ParseState → List Turn → List (List Token) → ParseState → Prop where
  | halt {state : ParseState} (ended : state.current.kind = .eof) : Leads grammar state [] [] state
  | turn {state final : ParseState} {taken : List Token} {turns : List Turn}
      {parts : List (List Token)} (more : state.current.kind ≠ .eof)
      (consumes : (Turn.startingAt grammar state).Consumes taken)
      (others : Leads grammar (Turn.startingAt grammar state).next turns parts final) :
      Leads grammar state (Turn.startingAt grammar state :: turns) (taken :: parts) final

/-- **The driver ends:** from every state its turns lead to an end. -/
theorem exists_leads (grammar : Grammar) (state : ParseState) :
    ∃ parts, Leads grammar state (Run.startingAt grammar state).turns parts
      (Run.startingAt grammar state).final := by
  induction state using Run.startingAt.induct grammar with
  | case1 state ended =>
    rw [startingAt_of_eof ended]
    exact ⟨[], .halt ended⟩
  | case2 state more ih =>
    obtain ⟨parts, leads⟩ := ih
    obtain ⟨taken, consumes⟩ := Turn.exists_consumes grammar more
    rw [startingAt_of_ne_eof more]
    exact ⟨taken :: parts, .turn more consumes leads⟩

namespace Leads

theorem final_kind (leads : Leads grammar state turns parts final) : final.current.kind = .eof := by
  induction leads with
  | halt ended => exact ended
  | turn _ _ _ ih => exact ih

/-- **The parts of the turns, in order, are the tokens that the run moves over.** -/
theorem takes (leads : Leads grammar state turns parts final) :
    state.Takes parts.flatten final := by
  induction leads with
  | halt _ => exact .nothing
  | @turn state _ _ _ _ _ consumes _ ih =>
    have first := consumes.takes
    rw [Turn.start_startingAt grammar state] at first
    rw [List.flatten_cons]
    exact first.trans ih

/-- **Every turn moves the cursor forward.** -/
theorem advances (leads : Leads grammar state turns parts final) :
    ∀ turn ∈ turns, turn.start.stream.consumed < turn.next.stream.consumed := by
  induction leads with
  | halt _ => exact fun _ none => absurd none List.not_mem_nil
  | turn _ consumes _ ih =>
    intro turn member
    rcases List.mem_cons.mp member with rfl | further
    · have moved := consumes.takes.consumed_eq
      have positive := List.length_pos_iff.mpr consumes.ne_nil
      omega
    · exact ih turn further

/-- There are no more turns than tokens to move over. -/
theorem length_le (leads : Leads grammar state turns parts final) :
    turns.length ≤ parts.flatten.length := by
  induction leads with
  | halt _ => exact Nat.le_refl _
  | turn _ consumes _ ih =>
    have positive := List.length_pos_iff.mpr consumes.ne_nil
    simp only [List.length_cons, List.flatten_cons, List.length_append]
    omega

/-- **Items and diagnostics are paid for** by tokens that are neither ends nor semicolons. -/
theorem outcomes_le (leads : Leads grammar state turns parts final) :
    (turns.map Turn.outcomes).sum ≤ parts.flatten.countP (·.kind.isInner) := by
  induction leads with
  | halt _ => exact Nat.le_refl _
  | turn more consumes _ ih =>
    have first := Turn.outcomes_le more consumes
    simp only [List.map_cons, List.sum_cons, List.flatten_cons, List.countP_append]
    omega

/-- Where only the last token is an end, the run comes to it. -/
theorem final_eq_last (leads : Leads grammar state turns parts final)
    (noEarlier : ∀ token ∈ state.stream.pending, token.kind ≠ .eof) :
    final.remaining = 0 ∧ final.current = state.stream.last := by
  have same : final.stream.last = state.stream.last := leads.takes.last_eq
  have last : final.remaining = 0 := by
    rcases Nat.eq_zero_or_pos final.remaining with last | more
    · exact last
    have upcoming : state.stream.pending ++ [state.stream.last] =
        parts.flatten ++ final.stream.pending ++ [final.stream.last] := by
      rw [List.append_assoc]
      exact leads.takes.upcoming_eq
    have pending : state.stream.pending = parts.flatten ++ final.stream.pending :=
      (List.append_inj' upcoming rfl).1
    have inside : final.current ∈ final.stream.pending := by
      obtain ⟨⟨consumed, inner, ending, ends⟩, depth⟩ := final
      cases inner with
      | nil => exact absurd more (Nat.lt_irrefl 0)
      | cons token others => exact List.mem_cons_self
    refine absurd leads.final_kind (noEarlier final.current ?_)
    rw [pending]
    exact List.mem_append_right _ inside
  exact ⟨last, (ParseState.advance_of_remaining_eq_zero last).2.trans same⟩

end Leads

/-- The items and diagnostics of a run are those that its turns add. -/
theorem length_outcomes (run : Run) :
    run.items.length + run.diagnostics.length = (run.turns.map Turn.outcomes).sum := by
  obtain ⟨turns, final⟩ := run
  unfold items diagnostics
  induction turns with
  | nil => rfl
  | cons turn others ih =>
    simp only [List.map_cons, List.sum_cons, ← ih, List.filterMap_cons, Turn.outcomes]
    cases turn.item? <;> cases turn.diagnostic? <;> simp <;> omega

/-- **The driver always ends and accounts for every token.** On every list of tokens its turns lead to
an end, and the parts of the tokens that they consume, one after the other, are the tokens before that
end. Every turn moves the cursor forward and adds one item or one diagnostic at most; of both there are
no more than tokens were consumed that are neither ends nor semicolons. Where the tokens to come hold
no end before their last one, the run halts at that. -/
theorem ofTokens_accountsForTokens (table : PrecedenceTable) (tokens : List Token) :
    let start := ParseState.ofTokens tokens
    let run := Run.ofTokens (.ofTable table) tokens
    ∃ parts : List (List Token), Leads (.ofTable table) start run.turns parts run.final ∧
      start.upcoming = parts.flatten ++ run.final.upcoming ∧
      run.final.stream.consumed = parts.flatten.length ∧
      run.turns.length ≤ parts.flatten.length ∧
      (∀ turn ∈ run.turns, turn.start.stream.consumed < turn.next.stream.consumed) ∧
      run.final.current.kind = .eof ∧
      ((∀ token ∈ start.stream.pending, token.kind ≠ .eof) →
        run.final.remaining = 0 ∧ run.final.current = start.stream.last) ∧
      (∀ turn ∈ run.turns, turn.item?.toList.length + turn.diagnostic?.toList.length ≤ 1) ∧
      run.items.length + run.diagnostics.length ≤ parts.flatten.countP (·.kind.isInner) := by
  intro start run
  obtain ⟨parts, leads⟩ : ∃ parts, Leads (.ofTable table) start run.turns parts run.final :=
    exists_leads (.ofTable table) start
  have fresh : start.stream.consumed = 0 := ParseState.consumed_ofTokens tokens
  refine ⟨parts, leads, leads.takes.upcoming_eq, ?_, leads.length_le, leads.advances,
    leads.final_kind, leads.final_eq_last, fun turn _ => turn.outcomes_le_one, ?_⟩
  · rw [leads.takes.consumed_eq, fresh, Nat.zero_add]
  · rw [length_outcomes]
    exact leads.outcomes_le

end Run

end OpLang
