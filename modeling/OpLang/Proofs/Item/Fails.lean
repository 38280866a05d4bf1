/-
**How the parsers of prototypes and items fail.**

The laws of `parameters`, `prototype`, `definition` and `item` say in which ways these parsers can fail,
token by token (`fails_parameters`, `fails_prototype`, `fails_definition`, `fails_item`). They stand
beside the laws of what the parsers yield.
-/

import OpLang.Item.Parser
import OpLang.Proofs.Expr.Fails

namespace OpLang.Parser

variable {grammar : Grammar} {state after : ParseState} {diagnostic : Diagnostic}

/-- Parameters fail where no name stands, behind a name where the list neither ends nor goes on, or
behind a comma. -/
theorem fails_parameters :
    parameters.Fails state diagnostic after ↔
      (state.current.kind ≠ .identifier ∧
        diagnostic = ⟨.notDue parameterNameDue state.current.value, state.current.start⟩ ∧
          after = state) ∨
      (state.current.kind = .identifier ∧
        ((state.advance.current.kind ≠ .closeParen ∧ state.advance.current.kind ≠ .comma ∧
            diagnostic = ⟨.notDue parameterSeparatorDue state.advance.current.value,
              state.advance.current.start⟩ ∧ after = state.advance) ∨
          (state.advance.current.kind = .comma ∧
            parameters.Fails state.advance.advance diagnostic after))) := by
  conv => lhs; rw [parameters_eq]
  rw [fails_expect_bind, fails_current_bind]
  refine or_congr_right (and_congr_right fun _ => ?_)
  by_cases closes : state.advance.current.kind = .closeParen
  · simp [closes]
  · by_cases goesOn : state.advance.current.kind = .comma
    · simp [goesOn, fails_wrap]
    · simp [closes, goesOn]

/-- A prototype fails where no name stands, behind it where no parenthesis opens, or in its parameters. -/
theorem fails_prototype :
    prototype.Fails state diagnostic after ↔
      (state.current.kind ≠ .identifier ∧
        diagnostic = ⟨.notDue functionNameDue state.current.value, state.current.start⟩ ∧
          after = state) ∨
      (state.current.kind = .identifier ∧
        ((state.advance.current.kind ≠ .openParen ∧
            diagnostic = ⟨.notDue openParenDue state.advance.current.value,
              state.advance.current.start⟩ ∧ after = state.advance) ∨
          (state.advance.current.kind = .openParen ∧
            state.advance.advance.current.kind ≠ .closeParen ∧
              parameters.Fails state.advance.advance diagnostic after))) := by
  rw [prototype, fails_expect_bind]
  simp only [fails_expect_bind, fails_current_bind]
  refine or_congr_right (and_congr_right fun _ => or_congr_right (and_congr_right fun _ => ?_))
  by_cases closes : state.advance.advance.current.kind = .closeParen
  · simp [closes]
  · simp [closes, fails_wrap]

/-- A definition fails in its prototype, or in the body behind it. -/
theorem fails_definition :
    (definition grammar).Fails state diagnostic after ↔
      prototype.Fails state.advance diagnostic after ∨
      ∃ signature middle, prototype.Yields state.advance signature middle ∧
        (expr grammar).Fails middle diagnostic after := by
  rw [definition, fails_advance_bind, fails_bind]
  simp only [fails_wrap]

end OpLang.Parser
