/-
**The steps of a parser are paid with the tokens it takes.**

A parser records a step where it opens an expression and where it joins two operands. Between two steps
it takes a token: the parenthesis or the comma before an expression that is opened inside another one,
the operator at which two operands are joined. So there are no more steps than tokens taken, and one
more at most where an expression is opened first.

`reply.Spends before passed failed` bounds the steps of a reply, those before it and the tokens to come
after it together, as `LeavesFewer` bounds the tokens alone. The bounds of a sequence follow from those
of its parts (`spends_bind`), and the recursion of the parsers gives the rest (`parsers_spend`). The
bound of a chain holds for every threshold, also where a chain takes what is no operator, and where it
takes the last token, which stays.
-/

import OpLang.Proofs.Expr.Limit

namespace OpLang

/-- Behind a token that is no end, less is to come. -/
theorem ParseState.remaining_advance_lt_of_kind {state : ParseState} {kind : Token.Kind}
    (due : state.current.kind = kind) (inner : kind ≠ .eof) :
    state.advance.remaining < state.remaining :=
  remaining_advance_lt (remaining_pos_of_kind due inner)

/-- Whether the steps of a reply, the number of those before it, and the number of tokens to come after
it are fewer than `passed` together after a success, and at most `failed` after a failure. -/
def Reply.Spends {α : Type} (before passed failed : Nat) : Reply α → Prop
  | .parsed _ after trace => before + trace.length + after.remaining < passed
  | .failed _ after trace => before + trace.length + after.remaining ≤ failed

namespace Reply

variable {α : Type} {reply : Reply α} {before passed failed passed' failed' : Nat}

theorem Spends.precededBy {earlier : List Step}
    (spends : reply.Spends (before + earlier.length) passed failed) :
    (reply.precededBy earlier).Spends before passed failed := by
  cases reply <;> simpa [Reply.precededBy, Spends, Nat.add_assoc] using spends

theorem Spends.closed (spends : reply.Spends before passed failed) :
    reply.closed.Spends before passed failed := by
  cases reply <;> exact spends

/-- More steps before a reply are paid for by wider bounds. -/
theorem Spends.behind {more : Nat} (spends : reply.Spends before passed failed)
    (onSuccess : more + passed ≤ before + passed') (onFailure : more + failed ≤ before + failed') :
    reply.Spends more passed' failed' := by
  cases reply with
  | parsed value after trace =>
    simp only [Spends] at spends ⊢
    omega
  | failed diagnostic after trace =>
    simp only [Spends] at spends ⊢
    omega

/-- The steps and the tokens to come are at most as many as the larger bound allows. -/
theorem Spends.length_le (spends : reply.Spends 0 (passed + 1) passed) :
    reply.trace.length + reply.after.remaining ≤ passed := by
  cases reply with
  | parsed value after trace =>
    simp only [Spends, Nat.zero_add] at spends
    exact Nat.le_of_lt_succ spends
  | failed diagnostic after trace =>
    simp only [Spends, Nat.zero_add] at spends
    exact spends

end Reply

namespace Parser

variable {α β : Type} {grammar : Grammar} {state : ParseState}
variable {before passed failed passed' failed' : Nat}

/-! ### Operations -/

theorem spends_pure {value : α} (fewer : before + state.remaining < passed) :
    ((pure value : Parser α) state).Spends before passed failed := by
  simpa [pure_apply, Reply.Spends] using fewer

theorem spends_failHere {cause : String → Cause} (few : before + state.remaining ≤ failed) :
    ((failHere cause : Parser α) state).Spends before passed failed := by
  simpa [failHere, Reply.Spends] using few

/-- **A sequence spends** what its first part does, and then its second part from what the first one
leaves. -/
theorem spends_bind {first : Parser α} {next : α → Parser β}
    (onFirst : (first state).Spends before passed failed)
    (onNext : ∀ value middle spent, first.Yields state value middle →
      spent + middle.remaining < passed → (next value middle).Spends spent passed' failed')
    (further : failed ≤ failed') : ((first >>= next) state).Spends before passed' failed' := by
  rw [bind_apply]
  cases reply : first state with
  | parsed value middle trace =>
    rw [reply] at onFirst
    exact (onNext value middle _ ⟨trace, reply⟩ onFirst).precededBy
  | failed diagnostic after trace =>
    rw [reply] at onFirst
    exact Nat.le_trans onFirst further

/-- Wrapping the value of a parser is no step. -/
theorem spends_wrap {first : Parser α} {wrap : α → β}
    (spends : (first state).Spends before passed failed) :
    ((first >>= fun value => pure (wrap value)) state).Spends before passed failed :=
  spends_bind spends (fun _ _ _ _ fewer => spends_pure fewer) (Nat.le_refl _)

/-- A number is no step. -/
theorem spends_number (kind : state.current.kind = .number) :
    (number state).Spends 0 state.remaining state.remaining := by
  have fewer := ParseState.remaining_advance_lt_of_kind kind (by decide)
  rw [number, advance_bind]
  cases Numeral.read? state.current.value.toList with
  | some value => exact spends_pure (by omega)
  | none =>
    simp only [Reply.Spends, failAt, List.length_nil]
    omega

/-- An expression that is opened, or refused, is one step more. -/
theorem spends_nested {inner : Parser α}
    (onInner : (inner state.deeper).Spends 0 state.remaining state.remaining) :
    (nested grammar inner state).Spends 0 (state.remaining + 1) (state.remaining + 1) := by
  rw [nested_apply]
  split <;> refine Reply.Spends.precededBy ?_ <;> rw [List.length_singleton]
  · exact spends_failHere (by omega)
  · exact onInner.closed.behind (by omega) (by omega)

/-! ### Expressions -/

/-- **The steps of the expression parsers are paid with tokens.** -/
theorem parsers_spend (grammar : Grammar) :
    (∀ state, (expr grammar state).Spends 0 (state.remaining + 1) (state.remaining + 1)) ∧
    (∀ minimum left state,
      (chain grammar minimum left state).Spends 0 (state.remaining + 1) state.remaining) ∧
    (∀ state, (operand grammar state).Spends 0 state.remaining state.remaining) ∧
    (∀ state, (groupRest grammar state).Spends 0 state.remaining (state.remaining + 1)) ∧
    (∀ name state,
      (referenceRest grammar name state).Spends 0 (state.remaining + 1) state.remaining) ∧
    (∀ state, (arguments grammar state).Spends 0 state.remaining (state.remaining + 1)) := by
  refine expr_induction grammar ?opened ?number ?identifier ?openParen ?noOperand ?groupRest
    ?reference ?emptyCall ?call ?arguments ?stop ?fold
  case opened =>
    intro state onOperand onChain
    rw [expr_eq]
    apply spends_nested
    refine spends_bind onOperand (fun first middle spent yields fewer => ?_) (Nat.le_refl _)
    rw [ParseState.remaining_deeper] at fewer
    exact (onChain first middle yields).behind (by omega) (by omega)
  case number =>
    intro state kind
    rw [operand_eq, current_bind]
    simp only [kind]
    exact spends_number kind
  case identifier =>
    intro state kind onReferenceRest
    have fewer := ParseState.remaining_advance_lt_of_kind kind (by decide)
    rw [operand_eq, current_bind]
    simp only [kind]
    rw [reference, advance_bind]
    exact onReferenceRest.behind (by omega) (by omega)
  case openParen =>
    intro state kind onGroupRest
    have fewer := ParseState.remaining_advance_lt_of_kind kind (by decide)
    rw [operand_eq, current_bind]
    simp only [kind]
    rw [group, advance_bind]
    exact onGroupRest.behind (by omega) (by omega)
  case noOperand =>
    intro state noNumber noName noGroup
    rw [operand_eq, current_bind]
    have fails : ((failHere .noExpression : Parser Expr) state).Spends 0 state.remaining
      state.remaining := spends_failHere (by omega)
    cases kind : state.current.kind <;> simp_all
  case groupRest =>
    intro state onExpr
    rw [groupRest_eq]
    refine spends_bind onExpr (fun inner middle spent _ fewer => ?_) (Nat.le_refl _)
    by_cases closes : middle.current.kind = .closeParen
    · have more := ParseState.remaining_advance_lt_of_kind closes (by decide)
      rw [expect_bind_of_kind closes]
      exact spends_pure (by omega)
    · rw [expect_bind_of_ne closes]
      exact spends_failHere (by omega)
  case reference =>
    intro name state noCall
    rw [referenceRest_eq, current_bind, if_neg noCall]
    exact spends_pure (by omega)
  case emptyCall =>
    intro name state opens closes
    rw [referenceRest_eq, current_bind, if_pos opens, advance_bind, current_bind, if_pos closes,
      advance_bind]
    have notMore := state.advance.remaining_advance_le
    have fewer := ParseState.remaining_advance_lt_of_kind opens (by decide)
    exact spends_pure (by omega)
  case call =>
    intro name state opens given onArguments
    have fewer := ParseState.remaining_advance_lt_of_kind opens (by decide)
    rw [referenceRest_eq, current_bind, if_pos opens, advance_bind, current_bind, if_neg given]
    exact (spends_wrap onArguments).behind (by omega) (by omega)
  case arguments =>
    intro state onExpr onRest
    rw [arguments_eq]
    refine spends_bind onExpr (fun first middle spent yields fewer => ?_) (Nat.le_refl _)
    rw [current_bind]
    by_cases closes : middle.current.kind = .closeParen
    · have more := ParseState.remaining_advance_lt_of_kind closes (by decide)
      rw [if_pos closes, advance_bind]
      exact spends_pure (by omega)
    · rw [if_neg closes]
      by_cases goesOn : middle.current.kind = .comma
      · have more := ParseState.remaining_advance_lt_of_kind goesOn (by decide)
        rw [if_pos goesOn, advance_bind]
        exact (spends_wrap (onRest first middle yields)).behind (by omega) (by omega)
      · rw [if_neg goesOn]
        exact spends_failHere (by omega)
  case stop =>
    intro minimum left state loose
    rw [chain_eq, current_bind]
    simp only [if_pos loose]
    exact spends_pure (by omega)
  case fold =>
    intro minimum left state tight onOperand onInner onRest
    -- The last token stays when a chain takes it, but then no operand follows.
    have notMore := state.remaining_advance_le
    rw [chain_eq, current_bind]
    simp only [if_neg (Int.not_lt.mpr tight)]
    rw [advance_bind]
    refine spends_bind onOperand (fun first middle spent yields fewer => ?_) notMore
    have onExtended : (extended grammar (grammar.bindingPower state.current) first middle).Spends
        spent state.remaining state.remaining := by
      rw [extended, current_bind]
      split
      · exact (onInner first middle yields).behind (by omega) (by omega)
      · exact spends_pure (by omega)
    refine spends_bind onExtended (fun right last spent' extension fewer' => ?_) (Nat.le_refl _)
    rw [record_bind]
    apply Reply.Spends.precededBy
    rw [List.length_singleton]
    exact (onRest first middle right last yields extension).behind (by omega) (by omega)

/-- **A chain takes a token for each of its steps,** whatever its threshold is. -/
theorem chain_steps_le (grammar : Grammar) (minimum : Int) (left : Expr) (state : ParseState) :
    (chain grammar minimum left state).trace.length +
      (chain grammar minimum left state).after.remaining ≤ state.remaining :=
  ((parsers_spend grammar).2.1 minimum left state).length_le

end Parser

end OpLang
