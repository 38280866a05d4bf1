/-
**What the parsers of prototypes and items yield.**

The laws of `parameters`, `prototype` and `item` say all that these parsers can yield, case by case
(`yields_parameters`, `yields_prototype`, `yields_item`). `parameters_induction` is the induction that
follows the recursion of `parameters`.
-/

import OpLang.Item.Parser
import OpLang.Proofs.Expr.Induction

namespace OpLang.Parser

variable {grammar : Grammar} {state after : ParseState}

/-! ### What each parser yields -/

/-- Parameters are a name before a closing parenthesis, or before a comma and parameters. -/
theorem yields_parameters {names : List String} :
    parameters.Yields state names after ↔
      state.current.kind = .identifier ∧
        ((state.advance.current.kind = .closeParen ∧ names = [state.current.value] ∧
            after = state.advance.advance) ∨
          (state.advance.current.kind = .comma ∧
            ∃ others, parameters.Yields state.advance.advance others after ∧
              names = state.current.value :: others)) := by
  conv => lhs; rw [parameters_eq]
  rw [yields_expect_bind, yields_current_bind]
  refine and_congr_right fun _ => ?_
  by_cases closes : state.advance.current.kind = .closeParen
  · simp [closes]
  · by_cases goesOn : state.advance.current.kind = .comma
    · simp only [goesOn, reduceCtorEq, if_false, if_true, yields_advance_bind, false_and, true_and,
        false_or]
      exact yields_wrap
    · simp [closes, goesOn]

/-- A prototype is a name and, in parentheses, no parameters or some. -/
theorem yields_prototype {read : Prototype} :
    prototype.Yields state read after ↔
      state.current.kind = .identifier ∧ state.advance.current.kind = .openParen ∧
        ((state.advance.advance.current.kind = .closeParen ∧ read = ⟨state.current.value, []⟩ ∧
            after = state.advance.advance.advance) ∨
          (state.advance.advance.current.kind ≠ .closeParen ∧
            ∃ names, parameters.Yields state.advance.advance names after ∧
              read = ⟨state.current.value, names⟩)) := by
  rw [prototype, yields_expect_bind]
  simp only [yields_expect_bind, yields_current_bind]
  refine and_congr_right fun _ => and_congr_right fun _ => ?_
  by_cases closes : state.advance.advance.current.kind = .closeParen
  · simp [closes]
  · simp only [closes, if_false, false_and, false_or, ne_eq, not_false_eq_true, true_and]
    exact yields_wrap

theorem yields_definition {read : Function} :
    (definition grammar).Yields state read after ↔
      ∃ signature middle body, prototype.Yields state.advance signature middle ∧
        (expr grammar).Yields middle body after ∧ read = ⟨signature, body⟩ := by
  rw [definition, yields_advance_bind, yields_bind]
  simp only [yields_wrap, exists_and_left]

theorem yields_external {read : Prototype} :
    external.Yields state read after ↔ prototype.Yields state.advance read after := by
  rw [external, yields_advance_bind]

theorem yields_anonymousFunction {read : Function} :
    (anonymousFunction grammar).Yields state read after ↔
      ∃ body, (expr grammar).Yields state body after ∧ read = ⟨.anonymous, body⟩ :=
  yields_wrap

/-- **An item** is a definition, an external declaration or an expression, and its first token tells
which. -/
theorem yields_item {read : Item} :
    (item grammar).Yields state read after ↔
      (state.current.kind = .defKeyword ∧ ∃ signature middle body,
        prototype.Yields state.advance signature middle ∧
          (expr grammar).Yields middle body after ∧ read = .definition ⟨signature, body⟩) ∨
      (state.current.kind = .externKeyword ∧ ∃ signature,
        prototype.Yields state.advance signature after ∧ read = .external signature) ∨
      (state.current.kind ≠ .defKeyword ∧ state.current.kind ≠ .externKeyword ∧ ∃ body,
        (expr grammar).Yields state body after ∧ read = .expression ⟨.anonymous, body⟩) := by
  rw [item, yields_current_bind]
  cases state.current.kind with
  | defKeyword =>
    simp only [yields_wrap, yields_definition, reduceCtorEq, ne_eq, not_true_eq_false, false_and,
      true_and, or_false]
    constructor
    · rintro ⟨function, ⟨signature, middle, body, named, yields, rfl⟩, rfl⟩
      exact ⟨signature, middle, body, named, yields, rfl⟩
    · rintro ⟨signature, middle, body, named, yields, rfl⟩
      exact ⟨⟨signature, body⟩, ⟨signature, middle, body, named, yields, rfl⟩, rfl⟩
  | externKeyword =>
    simp only [yields_wrap, yields_external, reduceCtorEq, ne_eq, not_true_eq_false, false_and,
      and_false, true_and, false_or, or_false]
  | _ =>
    simp only [yields_wrap, yields_anonymousFunction, reduceCtorEq, ne_eq, not_false_eq_true,
      false_and, true_and, false_or]
    constructor
    · rintro ⟨function, ⟨body, yields, rfl⟩, rfl⟩
      exact ⟨body, yields, rfl⟩
    · rintro ⟨body, yields, rfl⟩
      exact ⟨⟨.anonymous, body⟩, ⟨body, yields, rfl⟩, rfl⟩

/-! ### Induction -/

/-- **Induction over parameters.** A property of the states in which `parameters` starts holds everywhere
if it passes from behind a name and the token after it to the state where the name stands. -/
theorem parameters_induction {onParameters : ParseState → Prop}
    (step : ∀ state : ParseState,
      (state.current.kind = .identifier → onParameters state.advance.advance) → onParameters state)
    (state : ParseState) : onParameters state := by
  induction tokens : state.remaining using Nat.strongRecOn generalizing state with
  | ind tokens ih =>
    subst tokens
    refine step state fun name => ih _ ?_ _ rfl
    have more : 0 < state.remaining := ParseState.remaining_pos (by simp [name])
    simp
    omega

end OpLang.Parser
