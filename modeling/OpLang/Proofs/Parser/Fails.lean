/-
**How parsers fail.**

`parser.Fails state diagnostic after` says that a parser, run from `state`, fails with `diagnostic` and
stops at `after`, whatever steps it took on the way. It is the counterpart of `Yields`: a sequence
fails if its first part does, or if the second part does from where the first one stops
(`fails_bind`), and each reading operation has its own law beside that.
-/

import OpLang.Proofs.Parser.Yields

namespace OpLang

namespace Reply

variable {α : Type} {reply : Reply α}

theorem exists_parsed_of_result {value : α} (result : reply.result = .ok value) :
    ∃ trace, reply = .parsed value reply.after trace := by
  cases reply with
  | parsed value' after trace =>
    cases result
    exact ⟨trace, rfl⟩
  | failed diagnostic after trace => cases result

theorem exists_failed_of_result {diagnostic : Diagnostic} (result : reply.result = .error diagnostic) :
    ∃ trace, reply = .failed diagnostic reply.after trace := by
  cases reply with
  | parsed value after trace => cases result
  | failed diagnostic' after trace =>
    cases result
    exact ⟨trace, rfl⟩

end Reply

namespace Parser

variable {α β : Type} {state after : ParseState} {diagnostic : Diagnostic}

theorem bind_of_parsed {first : Parser α} {next : α → Parser β} {value : α} {middle : ParseState}
    {trace : List Step} (reply : first state = .parsed value middle trace) :
    (first >>= next) state = (next value middle).precededBy trace := by
  rw [bind_apply, reply]

theorem bind_of_failed {first : Parser α} {next : α → Parser β} {trace : List Step}
    (reply : first state = .failed diagnostic after trace) :
    (first >>= next) state = .failed diagnostic after trace := by
  rw [bind_apply, reply]

/-- Whether a parser, run from `state`, fails with `diagnostic` and stops at `after`. -/
def Fails (parser : Parser α) (state : ParseState) (diagnostic : Diagnostic) (after : ParseState) :
    Prop :=
  ∃ trace, parser state = .failed diagnostic after trace

/-- A parser yields exactly if its result is a value, and stops where its reply does. -/
theorem yields_iff_result {parser : Parser α} {value : α} :
    parser.Yields state value after ↔
      (parser state).result = .ok value ∧ (parser state).after = after := by
  constructor
  · rintro ⟨trace, reply⟩
    rw [reply]
    exact ⟨rfl, rfl⟩
  · rintro ⟨result, rfl⟩
    exact Reply.exists_parsed_of_result result

/-- It fails exactly if its result is a diagnostic. -/
theorem fails_iff_result {parser : Parser α} :
    parser.Fails state diagnostic after ↔
      (parser state).result = .error diagnostic ∧ (parser state).after = after := by
  constructor
  · rintro ⟨trace, reply⟩
    rw [reply]
    exact ⟨rfl, rfl⟩
  · rintro ⟨result, rfl⟩
    exact Reply.exists_failed_of_result result

/-- What yields does not fail. -/
theorem Yields.not_fails {parser : Parser α} {value : α} {last : ParseState}
    (yields : parser.Yields state value last) : ¬ parser.Fails state diagnostic after := by
  rintro ⟨trace, failed⟩
  obtain ⟨trace', parsed⟩ := yields
  rw [failed] at parsed
  cases parsed

@[simp]
theorem not_fails_pure {value : α} : ¬ (pure value : Parser α).Fails state diagnostic after := by
  rintro ⟨trace, reply⟩
  cases reply

@[simp]
theorem fails_failHere {cause : String → Cause} :
    (failHere cause : Parser α).Fails state diagnostic after ↔
      diagnostic = ⟨cause state.current.value, state.current.start⟩ ∧ after = state := by
  constructor
  · rintro ⟨trace, reply⟩
    cases reply
    exact ⟨rfl, rfl⟩
  · rintro ⟨rfl, rfl⟩
    exact ⟨[], rfl⟩

@[simp]
theorem fails_failAt {position : Position} {cause : Cause} :
    (failAt position cause : Parser α).Fails state diagnostic after ↔
      diagnostic = ⟨cause, position⟩ ∧ after = state := by
  constructor
  · rintro ⟨trace, reply⟩
    cases reply
    exact ⟨rfl, rfl⟩
  · rintro ⟨rfl, rfl⟩
    exact ⟨[], rfl⟩

/-- **A sequence** fails where its first part does, or where its second part does. -/
theorem fails_bind {first : Parser α} {next : α → Parser β} :
    (first >>= next).Fails state diagnostic after ↔
      first.Fails state diagnostic after ∨
      ∃ value middle, first.Yields state value middle ∧
        (next value).Fails middle diagnostic after := by
  cases replied : first state with
  | failed diagnostic' after' trace' =>
    have fails : first.Fails state diagnostic' after' := ⟨trace', replied⟩
    constructor
    · rintro ⟨trace, reply⟩
      rw [bind_of_failed replied] at reply
      cases reply
      exact .inl fails
    · rintro (⟨trace, reply⟩ | ⟨value, middle, yields, _⟩)
      · exact ⟨trace, bind_of_failed reply⟩
      · exact absurd fails yields.not_fails
  | parsed value middle trace' =>
    have yields : first.Yields state value middle := ⟨trace', replied⟩
    constructor
    · rintro ⟨trace, reply⟩
      rw [bind_of_parsed replied] at reply
      cases following : next value middle with
      | parsed value' last trace =>
        rw [following] at reply
        cases reply
      | failed diagnostic' last trace =>
        rw [following] at reply
        cases reply
        exact .inr ⟨value, middle, yields, trace, following⟩
    · rintro (fails | ⟨value', middle', yields', trace, following⟩)
      · exact absurd fails yields.not_fails
      · obtain ⟨rfl, rfl⟩ := yields.unique yields'
        exact ⟨trace' ++ trace, by rw [bind_of_parsed replied, following]; rfl⟩

/-- A parser under a wrapper fails as it does alone. -/
theorem fails_wrap {parser : Parser α} {wrap : α → β} :
    (parser >>= fun inner => pure (wrap inner)).Fails state diagnostic after ↔
      parser.Fails state diagnostic after := by
  simp [fails_bind]

@[simp]
theorem fails_current_bind {next : Token → Parser β} :
    (current >>= next).Fails state diagnostic after ↔
      (next state.current).Fails state diagnostic after := by
  unfold Fails
  rw [current_bind]

@[simp]
theorem fails_advance_bind {next : Token → Parser β} :
    (advance >>= next).Fails state diagnostic after ↔
      (next state.current).Fails state.advance diagnostic after := by
  unfold Fails
  rw [advance_bind]

/-- Where another token than the expected one stands, it is found fault with, and stays. -/
@[simp]
theorem fails_expect_bind {kind : Token.Kind} {complaint : String} {next : Token → Parser β} :
    (expect kind complaint >>= next).Fails state diagnostic after ↔
      (state.current.kind ≠ kind ∧
        diagnostic = ⟨.notDue complaint state.current.value, state.current.start⟩ ∧
          after = state) ∨
      (state.current.kind = kind ∧
        (next state.current).Fails state.advance diagnostic after) := by
  by_cases due : state.current.kind = kind
  · simp only [Fails, expect_bind_of_kind due, due, ne_eq, not_true_eq_false, false_and, true_and,
      false_or]
  · have fails := @fails_failHere β state after diagnostic (.notDue complaint)
    simp only [Fails, expect_bind_of_ne due, due, ne_eq, not_false_eq_true, true_and, false_and,
      or_false] at fails ⊢
    exact fails

@[simp]
theorem fails_record_bind {step : Step} {next : Unit → Parser β} :
    (record step >>= next).Fails state diagnostic after ↔
      (next ()).Fails state diagnostic after := by
  rw [fails_bind]
  constructor
  · rintro (⟨trace, reply⟩ | ⟨_, middle, ⟨trace, reply⟩, following⟩)
    · cases reply
    · cases reply
      exact following
  · exact fun following => .inr ⟨(), state, ⟨[step], rfl⟩, following⟩

/-- **A nested parser** is refused where the grammar has no room, and fails as the inner one does where
it has. -/
theorem fails_nested {grammar : Grammar} {inner : Parser α} :
    (nested grammar inner).Fails state diagnostic after ↔
      (grammar.isFull state.depth = true ∧
        diagnostic = ⟨.notDue tooDeep state.current.value, state.current.start⟩ ∧
          after = state) ∨
      (grammar.isFull state.depth = false ∧
        ∃ last, inner.Fails state.deeper diagnostic last ∧ after = last.shallower) := by
  unfold Fails
  rw [nested_apply]
  by_cases full : grammar.isFull state.depth = true
  · rw [if_pos full]
    simp [full, failHere, Reply.precededBy, eq_comm]
  · rw [if_neg full]
    simp only [Bool.not_eq_true] at full
    simp only [full, Bool.false_eq_true, false_and, true_and, false_or]
    constructor
    · rintro ⟨trace, reply⟩
      cases inside : inner state.deeper with
      | parsed value last innerTrace =>
        rw [inside] at reply
        cases reply
      | failed diagnostic' last innerTrace =>
        rw [inside] at reply
        cases reply
        exact ⟨last, ⟨innerTrace, rfl⟩, rfl⟩
    · rintro ⟨last, ⟨innerTrace, inside⟩, rfl⟩
      exact ⟨[.descend state] ++ innerTrace, by rw [inside]; rfl⟩

end Parser

end OpLang
