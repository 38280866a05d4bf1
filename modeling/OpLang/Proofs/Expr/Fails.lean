/-
**How the expression parsers fail.**

One law for each expression parser says in which ways it can fail: where it is at fault with a token
itself, and where a parser that it calls fails (`fails_expr`, `fails_operand`, `fails_chain` and the
others). They stand beside the laws of what the parsers yield, and are used with the same induction.
-/

import OpLang.Proofs.Expr.Induction
import OpLang.Proofs.Parser.Fails

namespace OpLang.Parser

variable {grammar : Grammar} {state after : ParseState} {diagnostic : Diagnostic}

/-- An expression is refused where none may be opened, or its operand fails or the chain after it. -/
theorem fails_expr :
    (expr grammar).Fails state diagnostic after ↔
      (grammar.isFull state.depth = true ∧
        diagnostic = ⟨.notDue tooDeep state.current.value, state.current.start⟩ ∧
          after = state) ∨
      (grammar.isFull state.depth = false ∧ ∃ last, after = last.shallower ∧
        ((operand grammar).Fails state.deeper diagnostic last ∨
          ∃ first middle, (operand grammar).Yields state.deeper first middle ∧
            (chain grammar 0 first).Fails middle diagnostic last)) := by
  rw [expr_eq, fails_nested]
  simp only [fails_bind]
  refine or_congr_right (and_congr_right fun _ => exists_congr fun last => ?_)
  exact and_comm

/-- A number fails if its token cannot be read, and takes it all the same. -/
theorem fails_number :
    number.Fails state diagnostic after ↔
      Numeral.read? state.current.value.toList = none ∧
        diagnostic = ⟨.badNumber state.current.value, state.current.start⟩ ∧
          after = state.advance := by
  rw [number, fails_advance_bind]
  cases Numeral.read? state.current.value.toList <;> simp

/-- An operand fails behind its first token, or at it if no operand begins with it. -/
theorem fails_operand :
    (operand grammar).Fails state diagnostic after ↔
      (state.current.kind = .number ∧ number.Fails state diagnostic after) ∨
      (state.current.kind = .identifier ∧
        (referenceRest grammar state.current.value).Fails state.advance diagnostic after) ∨
      (state.current.kind = .openParen ∧
        (groupRest grammar).Fails state.advance diagnostic after) ∨
      (state.current.kind ≠ .number ∧ state.current.kind ≠ .identifier ∧
        state.current.kind ≠ .openParen ∧
          diagnostic = ⟨.noExpression state.current.value, state.current.start⟩ ∧
            after = state) := by
  rw [operand_eq, fails_current_bind]
  cases kind : state.current.kind <;> simp [reference, group]

/-- The rest of a group fails if its expression does, or is not closed. -/
theorem fails_groupRest :
    (groupRest grammar).Fails state diagnostic after ↔
      (expr grammar).Fails state diagnostic after ∨
      ∃ inner, (expr grammar).Yields state inner after ∧ after.current.kind ≠ .closeParen ∧
        diagnostic = ⟨.notDue closeParenDue after.current.value, after.current.start⟩ := by
  rw [groupRest_eq, fails_bind]
  simp only [fails_expect_bind, not_fails_pure, and_false, or_false]
  refine or_congr_right ?_
  constructor
  · rintro ⟨inner, last, yields, open', raised, rfl⟩
    exact ⟨inner, yields, open', raised⟩
  · rintro ⟨inner, yields, open', raised⟩
    exact ⟨inner, after, yields, open', raised, rfl⟩

/-- What follows a name fails only if there are arguments and they do. -/
theorem fails_referenceRest {name : String} :
    (referenceRest grammar name).Fails state diagnostic after ↔
      state.current.kind = .openParen ∧ state.advance.current.kind ≠ .closeParen ∧
        (arguments grammar).Fails state.advance diagnostic after := by
  rw [referenceRest_eq, fails_current_bind]
  by_cases opens : state.current.kind = .openParen
  · by_cases closes : state.advance.current.kind = .closeParen
    · simp [opens, closes]
    · simp [opens, closes, fails_wrap]
  · simp [opens]

/-- Arguments fail if one of them does, or is neither the last one nor followed by a comma. -/
theorem fails_arguments :
    (arguments grammar).Fails state diagnostic after ↔
      (expr grammar).Fails state diagnostic after ∨
      ∃ first middle, (expr grammar).Yields state first middle ∧
        ((middle.current.kind ≠ .closeParen ∧ middle.current.kind ≠ .comma ∧
            diagnostic =
              ⟨.notDue argumentSeparatorDue middle.current.value, middle.current.start⟩ ∧
                after = middle) ∨
          (middle.current.kind = .comma ∧
            (arguments grammar).Fails middle.advance diagnostic after)) := by
  conv => lhs; rw [arguments_eq]
  rw [fails_bind]
  refine or_congr_right (exists_congr fun first => exists_congr fun middle => ?_)
  refine and_congr_right fun _ => ?_
  rw [fails_current_bind]
  by_cases closes : middle.current.kind = .closeParen
  · simp [closes]
  · by_cases goesOn : middle.current.kind = .comma
    · simp [goesOn, fails_wrap]
    · simp [closes, goesOn]

/-- An operand that is extended fails only in its extension. -/
theorem fails_extended {power : Int} {first : Expr} :
    (extended grammar power first).Fails state diagnostic after ↔
      power < grammar.bindingPower state.current ∧
        (chain grammar (power + 1) first).Fails state diagnostic after := by
  rw [extended, fails_current_bind]
  by_cases tighter : power < grammar.bindingPower state.current <;> simp [tighter]

/-- A chain fails only behind an operator: its operand does, its extension, or the chain after it. -/
theorem fails_chain {minimum : Int} {left : Expr} :
    (chain grammar minimum left).Fails state diagnostic after ↔
      minimum ≤ grammar.bindingPower state.current ∧
        ((operand grammar).Fails state.advance diagnostic after ∨
          ∃ first middle, (operand grammar).Yields state.advance first middle ∧
            ((extended grammar (grammar.bindingPower state.current) first).Fails middle diagnostic
                after ∨
              ∃ right last,
                (extended grammar (grammar.bindingPower state.current) first).Yields middle right
                  last ∧
                (chain grammar minimum (.binary state.current.value left right)).Fails last
                  diagnostic after)) := by
  rw [chain_eq, fails_current_bind]
  by_cases loose : grammar.bindingPower state.current < minimum
  · simp [loose, Int.not_le.mpr loose]
  · simp only [loose, if_false, fails_advance_bind, Int.not_lt.mp loose, true_and]
    rw [fails_bind]
    simp only [@fails_bind _ _ _ _ _ (extended _ _ _), fails_record_bind]

end OpLang.Parser
