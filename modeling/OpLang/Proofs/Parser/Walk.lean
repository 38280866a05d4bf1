/-
**Where parsers stop, and which token they find fault with.**

`Walks parser state` says that a parser, run from `state`, has only moved the cursor forward over some
tokens when it stops, and that after a failure its diagnostic is raised at the token where it stopped
or, if a number could not be read, at the last token it took (`Faults`). This holds of single
operations and of sequences of walks, so it is a congruence (`walking`), and all parsers walk.

Moving the cursor leaves the number of open expressions alone. Hence every parser closes what it opens,
also when it fails (`KeepsDepth`).
-/

import OpLang.Proofs.Parser.Congruence
import OpLang.Proofs.Parser.Simulation

namespace OpLang

@[simp]
theorem Reply.after_precededBy {α : Type} (reply : Reply α) (earlier : List Step) :
    (reply.precededBy earlier).after = reply.after := by
  cases reply <;> rfl

@[simp]
theorem Reply.result_precededBy {α : Type} (reply : Reply α) (earlier : List Step) :
    (reply.precededBy earlier).result = reply.result := by
  cases reply <;> rfl

@[simp]
theorem Reply.after_closed {α : Type} (reply : Reply α) :
    reply.closed.after = reply.after.shallower := by
  cases reply <;> rfl

@[simp]
theorem Reply.result_closed {α : Type} (reply : Reply α) : reply.closed.result = reply.result := by
  cases reply <;> rfl

namespace ParseState

/-- Wherever the cursor is, one advance moves it over some tokens: over one, or at the last token over
none. -/
theorem exists_takes_advance (state : ParseState) : ∃ taken, state.Takes taken state.advance := by
  obtain ⟨⟨consumed, pending, last, ends⟩, depth⟩ := state
  cases pending with
  | nil => exact ⟨[], .nothing⟩
  | cons token others => exact ⟨_, .token (Nat.succ_pos _) .nothing⟩

/-- At the last token, an end stands and advancing changes nothing. -/
theorem advance_of_remaining_eq_zero {state : ParseState} (last : state.remaining = 0) :
    state.advance = state ∧ state.current = state.stream.last := by
  obtain ⟨⟨consumed, pending, ending, ends⟩, depth⟩ := state
  obtain rfl := List.eq_nil_of_length_eq_zero last
  exact ⟨rfl, rfl⟩

theorem kind_of_remaining_eq_zero {state : ParseState} (last : state.remaining = 0) :
    state.current.kind = .eof := by
  rw [(advance_of_remaining_eq_zero last).2]
  exact state.stream.last_kind

end ParseState

namespace Parser

variable {α β : Type} {state : ParseState}

/-! ### Walks -/

/-- Whether a diagnostic, of a parser that took some tokens and stopped, is raised at the token where
the parser stopped or, of a number that cannot be read, at the last token it took. -/
inductive Faults (taken : List Token) (after : ParseState) : Diagnostic → Prop where
  | current {diagnostic : Diagnostic} (here : diagnostic.cause.isAtCurrent = true) :
      Faults taken after (diagnostic.raisedAt after.current)
  | number {earlier : List Token} {token : Token} (last : taken = earlier ++ [token])
      (kind : token.kind = .number) (unread : Numeral.read? token.value.toList = none) :
      Faults taken after ⟨.badNumber token.value, token.start⟩

/-- Tokens taken before make no difference to what is found fault with. -/
theorem Faults.append_left {earlier taken : List Token} {after : ParseState} {diagnostic : Diagnostic}
    (faults : Faults taken after diagnostic) : Faults (earlier ++ taken) after diagnostic := by
  cases faults with
  | current here => exact .current here
  | number last kind unread =>
    subst last
    exact .number (List.append_assoc earlier _ _).symm kind unread

theorem Faults.shallower {taken : List Token} {after : ParseState} {diagnostic : Diagnostic}
    (faults : Faults taken after diagnostic) : Faults taken after.shallower diagnostic := by
  cases faults with
  | current here => exact @Faults.current taken after.shallower _ here
  | number last kind unread => exact .number last kind unread

/-- Whether a parser, run from a state, moves the cursor over some tokens and after a failure finds
fault with the token where it stopped or with the last one it took. -/
def Walks (parser : Parser α) (state : ParseState) : Prop :=
  ∃ taken, state.Takes taken (parser state).after ∧
    ∀ diagnostic, (parser state).result = .error diagnostic →
      Faults taken (parser state).after diagnostic

theorem Walks.of_parsed {parser : Parser α} {value : α} {after : ParseState} {trace : List Step}
    (walks : Walks parser state) (reply : parser state = .parsed value after trace) :
    ∃ taken, state.Takes taken after := by
  obtain ⟨taken, takes, _⟩ := walks
  rw [reply] at takes
  exact ⟨taken, takes⟩

theorem Walks.of_failed {parser : Parser α} {diagnostic : Diagnostic} {after : ParseState}
    {trace : List Step} (walks : Walks parser state)
    (reply : parser state = .failed diagnostic after trace) :
    ∃ taken, state.Takes taken after ∧ Faults taken after diagnostic := by
  obtain ⟨taken, takes, faults⟩ := walks
  rw [reply] at takes faults
  exact ⟨taken, takes, faults diagnostic rfl⟩

/-- The second part of a sequence walks on from where the first one stopped. -/
theorem walks_bind {first : Parser α} {next : α → Parser β} (onFirst : Walks first state)
    (onNext : ∀ value middle, first.Yields state value middle → Walks (next value) middle) :
    Walks (first >>= next) state := by
  unfold Walks
  rw [bind_apply]
  cases reply : first state with
  | failed diagnostic after trace =>
    obtain ⟨taken, takes, faults⟩ := onFirst.of_failed reply
    refine ⟨taken, takes, fun other same => ?_⟩
    obtain rfl := Except.error.inj same
    exact faults
  | parsed value middle trace =>
    obtain ⟨taken, takes⟩ := onFirst.of_parsed reply
    obtain ⟨others, takes', faults⟩ := onNext value middle ⟨trace, reply⟩
    simp only [Reply.after_precededBy, Reply.result_precededBy]
    exact ⟨taken ++ others, takes.trans takes', fun diagnostic failed =>
      (faults diagnostic failed).append_left⟩

/-- A parser that fails at the current token does not move. -/
theorem walks_failHere {cause : String → Cause} (here : ∀ text, (cause text).isAtCurrent = true)
    (requoted : ∀ text other, (cause text).requoted other = cause other) :
    Walks (failHere cause : Parser α) state := by
  refine ⟨[], .nothing, fun diagnostic failed => ?_⟩
  obtain rfl := Except.error.inj failed
  have faults := @Faults.current [] state ⟨cause "", .unknown⟩ (here "")
  simp only [Diagnostic.raisedAt, requoted] at faults
  exact faults

theorem walks_number (kind : state.current.kind = .number) : Walks number state := by
  have takes : state.Takes [state.current] state.advance := .current (by simp [kind])
  unfold Walks
  rw [number, advance_bind]
  cases read : Numeral.read? state.current.value.toList with
  | some value =>
    refine ⟨[state.current], takes, fun diagnostic failed => ?_⟩
    cases failed
  | none =>
    refine ⟨[state.current], takes, fun diagnostic failed => ?_⟩
    obtain rfl := Except.error.inj failed
    exact .number (List.nil_append _).symm kind read

theorem walks_nested {grammar : Grammar} {inner : Parser α} (onInner : Walks inner state.deeper) :
    Walks (nested grammar inner) state := by
  unfold Walks
  rw [nested_apply]
  by_cases full : grammar.isFull state.depth = true
  · rw [if_pos full, Reply.after_precededBy, Reply.result_precededBy]
    exact walks_failHere (fun _ => rfl) fun _ _ => rfl
  · obtain ⟨taken, takes, faults⟩ := onInner
    rw [if_neg full]
    simp only [Reply.after_precededBy, Reply.result_precededBy, Reply.after_closed,
      Reply.result_closed]
    exact ⟨taken, takes.shallower, fun diagnostic failed => (faults diagnostic failed).shallower⟩

/-- **To walk is a congruence.** -/
def walking (grammar : Grammar) : Congruence grammar grammar where
  Related parser _ state := Walks parser state
  table_eq := rfl
  related_pure _ _ := ⟨[], .nothing, nofun⟩
  related_bind := walks_bind
  related_current _ := ⟨[], .nothing, nofun⟩
  related_advance state _ := by
    obtain ⟨taken, takes⟩ := state.exists_takes_advance
    exact ⟨taken, takes, nofun⟩
  related_number _ := walks_number
  related_noExpression _ := walks_failHere (fun _ => rfl) fun _ _ => rfl
  related_notDue _ _ := walks_failHere (fun _ => rfl) fun _ _ => rfl
  related_fold _ _ _ := ⟨[], .nothing, nofun⟩
  related_nested := walks_nested

/-- **Parsers of expressions walk.** -/
theorem expr_walks (grammar : Grammar) (state : ParseState) : Walks (expr grammar) state :=
  (walking grammar).expr_related state

theorem prototype_walks (state : ParseState) : Walks prototype state :=
  (walking (.ofTable .empty)).prototype_related state

/-- **Parsers of items walk.** -/
theorem item_walks (grammar : Grammar) (state : ParseState) : Walks (item grammar) state :=
  (walking grammar).item_related state

/-! ### Depths -/

/-- Whether a parser, run from a state, stops at the depth of that state, also when it fails. -/
def KeepsDepth (parser : Parser α) (state : ParseState) : Prop :=
  (parser state).after.depth = state.depth

theorem Walks.keepsDepth {parser : Parser α} (walks : Walks parser state) :
    KeepsDepth parser state := by
  obtain ⟨taken, takes, _⟩ := walks
  exact takes.depth_eq

theorem KeepsDepth.of_yields {parser : Parser α} {value : α} {after : ParseState}
    (keeps : KeepsDepth parser state) (yields : parser.Yields state value after) :
    after.depth = state.depth := by
  obtain ⟨trace, reply⟩ := yields
  unfold KeepsDepth at keeps
  rw [reply] at keeps
  exact keeps

theorem KeepsDepth.of_failed {parser : Parser α} {diagnostic : Diagnostic} {after : ParseState}
    {trace : List Step} (keeps : KeepsDepth parser state)
    (reply : parser state = .failed diagnostic after trace) : after.depth = state.depth := by
  unfold KeepsDepth at keeps
  rw [reply] at keeps
  exact keeps

theorem expr_keepsDepth (grammar : Grammar) (state : ParseState) :
    KeepsDepth (expr grammar) state :=
  (expr_walks grammar state).keepsDepth

theorem operand_keepsDepth (grammar : Grammar) (state : ParseState) :
    KeepsDepth (operand grammar) state :=
  Walks.keepsDepth ((walking grammar).operand_related state)

theorem prototype_keepsDepth (state : ParseState) : KeepsDepth prototype state :=
  (prototype_walks state).keepsDepth

theorem item_keepsDepth (grammar : Grammar) (state : ParseState) :
    KeepsDepth (item grammar) state :=
  (item_walks grammar state).keepsDepth

end Parser

end OpLang
