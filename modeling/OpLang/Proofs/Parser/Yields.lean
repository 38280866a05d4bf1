/-
**What parsers yield, and the tokens they take.**

`parser.Yields state value after` says that a parser, run from `state`, replies with `value` and
stops at `after`, whatever steps it took on the way. What a sequence yields is what its parts yield
one after the other (`yields_bind`), and each reading operation has its own law beside that; so what
a composed parser yields can be read off it without opening a reply.

`state.Takes taken after` says that the cursor moves from `state` to `after` over the tokens
`taken`. Moves compose (`Takes.trans`), and the tokens to come at `state` are those taken and then
those to come at `after` (`Takes.upcoming_eq`).
-/

import OpLang.Parser

namespace OpLang

/-- A token that stands in no source. -/
def Token.unplaced (kind : Token.Kind) (value : String) : Token :=
  ⟨kind, value, ⟨Position.unknown, Position.unknown⟩⟩

namespace Parser

variable {α β : Type}

/-! ### Yielding -/

/-- Whether a parser, run from `state`, replies with `value` and stops at `after`. -/
def Yields (parser : Parser α) (state : ParseState) (value : α) (after : ParseState) : Prop :=
  ∃ trace, parser state = .parsed value after trace

/-- A parser yields one value at most, and stops in one place. -/
theorem Yields.unique {parser : Parser α} {state after after' : ParseState} {value value' : α}
    (yields : parser.Yields state value after) (yields' : parser.Yields state value' after') :
    value = value' ∧ after = after' := by
  obtain ⟨trace, reply⟩ := yields
  obtain ⟨trace', reply'⟩ := yields'
  rw [reply] at reply'
  cases reply'
  exact ⟨rfl, rfl⟩

@[simp]
theorem yields_pure {value value' : α} {state after : ParseState} :
    (pure value : Parser α).Yields state value' after ↔ value' = value ∧ after = state := by
  constructor
  · rintro ⟨trace, reply⟩
    cases reply
    exact ⟨rfl, rfl⟩
  · rintro ⟨rfl, rfl⟩
    exact ⟨[], rfl⟩

@[simp]
theorem not_yields_failHere {cause : String → Cause} {state after : ParseState} {value : α} :
    ¬ (failHere cause : Parser α).Yields state value after := by
  rintro ⟨trace, reply⟩
  cases reply

@[simp]
theorem not_yields_failAt {position : Position} {cause : Cause} {state after : ParseState}
    {value : α} : ¬ (failAt position cause : Parser α).Yields state value after := by
  rintro ⟨trace, reply⟩
  cases reply

/-- **A sequence** yields what its second part yields from where its first part stops. -/
theorem yields_bind {first : Parser α} {next : α → Parser β} {state after : ParseState}
    {value : β} :
    (first >>= next).Yields state value after ↔
      ∃ earlier middle, first.Yields state earlier middle ∧
        (next earlier).Yields middle value after := by
  constructor
  · rintro ⟨trace, reply⟩
    rw [bind_apply] at reply
    cases replied : first state with
    | failed diagnostic middle earlierTrace =>
      rw [replied] at reply
      cases reply
    | parsed earlier middle earlierTrace =>
      rw [replied] at reply
      refine ⟨earlier, middle, ⟨earlierTrace, replied⟩, ?_⟩
      cases following : next earlier middle with
      | failed diagnostic last laterTrace =>
        simp only [following, Reply.precededBy] at reply
        cases reply
      | parsed value' last laterTrace =>
        simp only [following, Reply.precededBy] at reply
        cases reply
        exact ⟨laterTrace, following⟩
  · rintro ⟨earlier, middle, ⟨earlierTrace, replied⟩, laterTrace, following⟩
    refine ⟨earlierTrace ++ laterTrace, ?_⟩
    simp only [bind_apply, replied, following, Reply.precededBy]

/-- What a parser yields under a wrapper. -/
theorem yields_wrap {parser : Parser α} {wrap : α → β} {state after : ParseState} {value : β} :
    (parser >>= fun inner => pure (wrap inner)).Yields state value after ↔
      ∃ inner, parser.Yields state inner after ∧ value = wrap inner := by
  simp only [yields_bind, yields_pure]
  constructor
  · rintro ⟨inner, last, yields, rfl, rfl⟩
    exact ⟨inner, yields, rfl⟩
  · rintro ⟨inner, yields, rfl⟩
    exact ⟨inner, after, yields, rfl, rfl⟩

@[simp]
theorem yields_current_bind {next : Token → Parser β} {state after : ParseState} {value : β} :
    (current >>= next).Yields state value after ↔
      (next state.current).Yields state value after := by
  unfold Yields
  rw [current_bind]

@[simp]
theorem yields_advance_bind {next : Token → Parser β} {state after : ParseState} {value : β} :
    (advance >>= next).Yields state value after ↔
      (next state.current).Yields state.advance value after := by
  unfold Yields
  rw [advance_bind]

/-- An expected token must be there, and is taken. -/
@[simp]
theorem yields_expect_bind {kind : Token.Kind} {complaint : String} {next : Token → Parser β}
    {state after : ParseState} {value : β} :
    (expect kind complaint >>= next).Yields state value after ↔
      state.current.kind = kind ∧ (next state.current).Yields state.advance value after := by
  by_cases due : state.current.kind = kind
  · simp only [Yields, expect_bind_of_kind due, due, true_and]
  · simp only [due, false_and, iff_false]
    rintro ⟨trace, reply⟩
    rw [expect_bind_of_ne due] at reply
    cases reply

@[simp]
theorem yields_record_bind {step : Step} {next : Unit → Parser β} {state after : ParseState}
    {value : β} :
    (record step >>= next).Yields state value after ↔ (next ()).Yields state value after := by
  rw [yields_bind]
  constructor
  · rintro ⟨_, middle, ⟨trace, reply⟩, following⟩
    cases reply
    exact following
  · exact fun following => ⟨(), state, ⟨[step], rfl⟩, following⟩

/-- What a nested parser replies: the refusal where the grammar has no room, else what the inner one
replies, closed. -/
theorem nested_apply (grammar : Grammar) (inner : Parser α) (state : ParseState) :
    nested grammar inner state =
      if grammar.isFull state.depth then
        (failHere (.notDue tooDeep) state).precededBy [.descend state]
      else (inner state.deeper).closed.precededBy [.descend state] := by
  show Parser.bind (descend grammar) _ state = _
  unfold Parser.bind descend
  by_cases full : grammar.isFull state.depth = true
  · rw [if_pos full, if_pos full]
    rfl
  · rw [if_neg full, if_neg full]

/-- **A nested parser** yields only where the grammar has room, and closes what was opened. -/
theorem yields_nested {grammar : Grammar} {inner : Parser α} {state after : ParseState}
    {value : α} :
    (nested grammar inner).Yields state value after ↔
      grammar.isFull state.depth = false ∧
        ∃ last, inner.Yields state.deeper value last ∧ after = last.shallower := by
  unfold Yields
  rw [nested_apply]
  by_cases full : grammar.isFull state.depth = true
  · rw [if_pos full]
    simp [full, failHere, Reply.precededBy]
  · rw [if_neg full]
    simp only [Bool.not_eq_true] at full
    simp only [full, true_and]
    constructor
    · rintro ⟨trace, reply⟩
      cases inside : inner state.deeper with
      | failed diagnostic last innerTrace =>
        simp only [inside, Reply.closed, Reply.precededBy] at reply
        cases reply
      | parsed value' last innerTrace =>
        simp only [inside, Reply.closed, Reply.precededBy] at reply
        cases reply
        exact ⟨last, ⟨innerTrace, rfl⟩, rfl⟩
    · rintro ⟨last, ⟨innerTrace, inside⟩, rfl⟩
      exact ⟨[.descend state] ++ innerTrace, by rw [inside]; rfl⟩

end Parser

namespace ParseState

/-! ### Tokens to come -/

/-- The tokens to come, the last one included. -/
def upcoming (state : ParseState) : List Token := state.stream.toList

/-- The current token is the first to come. -/
theorem head?_upcoming (state : ParseState) : state.upcoming.head? = some state.current :=
  state.stream.head?_toList

theorem current_mem_upcoming (state : ParseState) : state.current ∈ state.upcoming :=
  List.mem_of_head? state.head?_upcoming

/-- What is to come behind the current token was to come before. -/
theorem mem_of_mem_advance (state : ParseState) {token : Token}
    (member : token ∈ state.advance.upcoming) : token ∈ state.upcoming := by
  have member : token ∈ state.stream.advance.toList := member
  rw [TokenStream.toList_advance] at member
  split at member
  · exact member
  · exact List.mem_of_mem_tail member

theorem current_eq_of_upcoming {state : ParseState} {token : Token} {rest : List Token}
    (upcoming : state.upcoming = token :: rest) : state.current = token := by
  have front := state.head?_upcoming
  rw [upcoming] at front
  exact (Option.some.inj front).symm

/-- Where more is to come than the last token, the current token comes first and the others after
it. -/
theorem upcoming_of_remaining_pos {state : ParseState} (more : 0 < state.remaining) :
    state.upcoming = state.current :: state.advance.upcoming := by
  obtain ⟨⟨consumed, pending, last, ends⟩, depth⟩ := state
  cases pending with
  | nil => exact absurd more (Nat.lt_irrefl 0)
  | cons token rest => rfl

theorem upcoming_of_ne_eof {state : ParseState} (more : state.current.kind ≠ .eof) :
    state.upcoming = state.current :: state.advance.upcoming :=
  upcoming_of_remaining_pos (remaining_pos more)

/-- Behind a known token that is no end stand the tokens known to follow it. -/
theorem upcoming_advance {state : ParseState} {token : Token} {rest : List Token}
    (upcoming : state.upcoming = token :: rest) (more : token.kind ≠ .eof) :
    state.current = token ∧ state.advance.upcoming = rest := by
  have current := current_eq_of_upcoming upcoming
  rw [← current] at more
  rw [upcoming_of_ne_eof more] at upcoming
  exact ⟨current, (List.cons.inj upcoming).2⟩

theorem current_congr {state state' : ParseState} (same : state'.upcoming = state.upcoming) :
    state'.current = state.current := by
  have front := state.head?_upcoming
  rw [← same, state'.head?_upcoming] at front
  exact Option.some.inj front

theorem length_upcoming (state : ParseState) : state.upcoming.length = state.remaining + 1 :=
  List.length_append

theorem upcoming_advance_congr {state state' : ParseState}
    (same : state'.upcoming = state.upcoming) :
    state'.advance.upcoming = state.advance.upcoming := by
  have remaining : state'.stream.remaining = state.stream.remaining := by
    have lengths := congrArg List.length same
    rw [length_upcoming, length_upcoming] at lengths
    exact Nat.succ.inj lengths
  show state'.stream.advance.toList = state.stream.advance.toList
  rw [TokenStream.toList_advance, TokenStream.toList_advance, remaining,
    show state'.stream.toList = state.stream.toList from same]

/-- The stream of tokens that do not end in an end has all of them before its last token. -/
theorem ofTokens_of_getLast? {tokens : List Token}
    (goesOn : ∀ token ∈ tokens.getLast?, token.kind ≠ .eof) :
    ∃ last ends, ofTokens tokens = ⟨⟨0, tokens, last, ends⟩, 0⟩ := by
  unfold ofTokens TokenStream.ofList
  cases final : tokens.getLast? with
  | none =>
    obtain rfl := List.getLast?_eq_none_iff.mp final
    exact ⟨.atEnd .unknown, rfl, rfl⟩
  | some token =>
    have notEnd := goesOn token final
    exact ⟨.atEnd token.span.stop, rfl, by simp [notEnd]⟩

/-- The stream of tokens that end in an end has this one as its last token. -/
theorem ofTokens_append_eof {tokens : List Token} {ending : Token} (ends : ending.kind = .eof) :
    ofTokens (tokens ++ [ending]) = ⟨⟨0, tokens, ending, ends⟩, 0⟩ := by
  unfold ofTokens TokenStream.ofList
  simp [ends]

/-- Tokens put in front of others are to come before these, and the stream ends in the same way. -/
theorem upcoming_ofTokens_append {before after : List Token} (more : after ≠ []) :
    (ofTokens (before ++ after)).upcoming = before ++ (ofTokens after).upcoming := by
  have final : after.getLast? = some (after.getLast more) := List.getLast?_eq_some_getLast more
  have final' : (before ++ after).getLast? = some (after.getLast more) := by
    rw [List.getLast?_append, final, Option.some_or]
  unfold upcoming ofTokens TokenStream.ofList
  rw [final, final']
  by_cases ends : (after.getLast more).kind = .eof
  · simp [ends, TokenStream.toList, List.dropLast_append_of_ne_nil more]
  · simp [ends, TokenStream.toList]

/-- Without the first tokens of a list, what is to come is the same without them. -/
theorem upcoming_ofTokens_drop {tokens : List Token} {count : Nat} (more : tokens.drop count ≠ []) :
    (ofTokens (tokens.drop count)).upcoming = (ofTokens tokens).upcoming.drop count := by
  have whole : (ofTokens (tokens.take count ++ tokens.drop count)).upcoming = _ :=
    upcoming_ofTokens_append more
  rw [List.take_append_drop] at whole
  have inside : (tokens.take count).length = count := by
    rw [ne_eq, List.drop_eq_nil_iff, Nat.not_le] at more
    rw [List.length_take, Nat.min_eq_left (Nat.le_of_lt more)]
  rw [whole, List.drop_left' inside]

/-- At the start of a list of tokens these are to come, with one end behind them at most. -/
theorem upcoming_ofTokens (tokens : List Token) :
    (∃ before ending, tokens = before ++ [ending] ∧ ending.kind = .eof ∧
      (ofTokens tokens).upcoming = tokens) ∨
    ((∀ token ∈ tokens.getLast?, token.kind ≠ .eof) ∧
      ∃ last, last.kind = .eof ∧ (ofTokens tokens).upcoming = tokens ++ [last]) := by
  by_cases final : ∃ ending ∈ tokens.getLast?, ending.kind = .eof
  · obtain ⟨ending, final, ended⟩ := final
    obtain ⟨before, rfl⟩ := List.getLast?_eq_some_iff.mp final
    refine Or.inl ⟨before, ending, rfl, ended, ?_⟩
    rw [ofTokens_append_eof ended]
    rfl
  · have goesOn : ∀ token ∈ tokens.getLast?, token.kind ≠ .eof :=
      fun token member ended => final ⟨token, member, ended⟩
    obtain ⟨last, ended, start⟩ := ofTokens_of_getLast? goesOn
    refine Or.inr ⟨goesOn, last, ended, ?_⟩
    rw [start]
    rfl

@[simp]
theorem upcoming_deeper (state : ParseState) : state.deeper.upcoming = state.upcoming := rfl

@[simp]
theorem upcoming_shallower (state : ParseState) : state.shallower.upcoming = state.upcoming := rfl

@[simp]
theorem current_deeper (state : ParseState) : state.deeper.current = state.current := rfl

@[simp]
theorem current_shallower (state : ParseState) : state.shallower.current = state.current := rfl

@[simp]
theorem depth_advance (state : ParseState) : state.advance.depth = state.depth := rfl

@[simp]
theorem depth_deeper (state : ParseState) : state.deeper.depth = state.depth + 1 := rfl

/-! ### Moves of the cursor -/

/-- Whether the cursor moves from one state to another over the given tokens; the last token to come
is never moved over. -/
inductive Takes : ParseState → List Token → ParseState → Prop where
  | nothing {state : ParseState} : Takes state [] state
  | token {state after : ParseState} {taken : List Token} (more : 0 < state.remaining)
      (others : Takes state.advance taken after) : Takes state (state.current :: taken) after

namespace Takes

variable {state middle after : ParseState} {taken others : List Token}

/-- A token that is no end can be moved over. -/
theorem current (more : state.current.kind ≠ .eof) :
    state.Takes [state.current] state.advance :=
  .token (remaining_pos more) .nothing

theorem of_kind {kind : Token.Kind} (due : state.current.kind = kind) (inner : kind ≠ .eof) :
    state.Takes [state.current] state.advance :=
  .current (by rw [due]; exact inner)

theorem trans (first : state.Takes taken middle) (second : middle.Takes others after) :
    state.Takes (taken ++ others) after := by
  induction first with
  | nothing => exact second
  | token more _ ih => exact .token more (ih second)

theorem upcoming_eq (takes : state.Takes taken after) :
    state.upcoming = taken ++ after.upcoming := by
  induction takes with
  | nothing => rfl
  | token more _ ih => rw [upcoming_of_remaining_pos more, ih, List.cons_append]

theorem depth_eq (takes : state.Takes taken after) : after.depth = state.depth := by
  induction takes with
  | nothing => rfl
  | token _ _ ih => rw [ih, depth_advance]

/-- Moving inside an opened expression is moving outside of it. -/
theorem shallower (takes : state.deeper.Takes taken after) : state.Takes taken after.shallower := by
  generalize inside : state.deeper = within at takes
  induction takes generalizing state with
  | nothing =>
    subst inside
    exact .nothing
  | token more _ ih =>
    subst inside
    exact .token more (ih rfl)

/-- As many tokens moved over lead to the same place. -/
theorem unique {after' : ParseState} (takes : state.Takes taken after)
    (takes' : state.Takes taken after') : after = after' := by
  induction takes with
  | nothing => cases takes'; rfl
  | token _ _ ih =>
    cases takes' with
    | token _ others' => exact ih others'

/-- Two moves that leave the same tokens to come are over the same tokens. -/
theorem unique_of_upcoming_eq {taken' : List Token} {after' : ParseState}
    (takes : state.Takes taken after) (takes' : state.Takes taken' after')
    (same : after.upcoming = after'.upcoming) : taken = taken' ∧ after = after' := by
  have equal : taken = taken' := by
    have appended := takes.upcoming_eq.symm.trans takes'.upcoming_eq
    rw [same] at appended
    exact List.append_cancel_right appended
  subst equal
  exact ⟨rfl, takes.unique takes'⟩

end Takes

end ParseState

end OpLang
