/-
**What the expression parsers yield, and induction over them.**

One law for each expression parser says all that it can yield (`yields_expr`, `yields_operand`,
`yields_chain` and the others). `expr_induction` is the induction that follows their recursion: a
property of the states in which the parsers start holds everywhere if it passes from the states in
which a parser calls the others to the state in which it was called itself. Proofs about expressions
use these laws and this induction, and neither the bounds of the parsers nor their replies.
-/

import OpLang.Expr.Parser
import OpLang.Proofs.Parser.Yields

namespace OpLang.Parser

variable {grammar : Grammar} {state after : ParseState} {tree : Expr}

/-! ### What each parser yields -/

/-- An expression is an operand and the chain after it, where one more may be opened. -/
theorem yields_expr :
    (expr grammar).Yields state tree after ↔
      grammar.isFull state.depth = false ∧
        ∃ first middle last, (operand grammar).Yields state.deeper first middle ∧
          (chain grammar 0 first).Yields middle tree last ∧ after = last.shallower := by
  rw [expr_eq, yields_nested]
  simp only [yields_bind]
  refine and_congr_right fun _ => ?_
  constructor
  · rintro ⟨last, ⟨first, middle, operand, chain⟩, rfl⟩
    exact ⟨first, middle, last, operand, chain, rfl⟩
  · rintro ⟨first, middle, last, operand, chain, rfl⟩
    exact ⟨last, ⟨first, middle, operand, chain⟩, rfl⟩

/-- A number is what the current token writes. -/
theorem yields_number :
    number.Yields state tree after ↔
      ∃ value, Numeral.read? state.current.value.toList = some value ∧ tree = .number value ∧
        after = state.advance := by
  rw [number, yields_advance_bind]
  cases Numeral.read? state.current.value.toList with
  | none => simp
  | some value => simp

/-- An operand is a number, a reference or call, or a group, and its first token tells which. -/
theorem yields_operand :
    (operand grammar).Yields state tree after ↔
      (state.current.kind = .number ∧ number.Yields state tree after) ∨
      (state.current.kind = .identifier ∧
        (referenceRest grammar state.current.value).Yields state.advance tree after) ∨
      (state.current.kind = .openParen ∧ (groupRest grammar).Yields state.advance tree after) := by
  rw [operand_eq, yields_current_bind]
  cases kind : state.current.kind <;> simp [reference, group]

/-- An expression begins with a number, a name or an opening parenthesis. -/
theorem kind_of_yields_expr (yields : (expr grammar).Yields state tree after) :
    state.current.kind = .number ∨ state.current.kind = .identifier ∨
      state.current.kind = .openParen := by
  obtain ⟨_, first, middle, last, operand, _⟩ := yields_expr.mp yields
  rcases yields_operand.mp operand with ⟨kind, _⟩ | ⟨kind, _⟩ | ⟨kind, _⟩
  · exact Or.inl kind
  · exact Or.inr (Or.inl kind)
  · exact Or.inr (Or.inr kind)

/-- A group is an expression and the parenthesis that closes it. -/
theorem yields_groupRest :
    (groupRest grammar).Yields state tree after ↔
      ∃ last, (expr grammar).Yields state tree last ∧ last.current.kind = .closeParen ∧
        after = last.advance := by
  rw [groupRest_eq, yields_bind]
  simp only [yields_expect_bind, yields_pure]
  constructor
  · rintro ⟨inner, last, yields, closes, rfl, rfl⟩
    exact ⟨last, yields, closes, rfl⟩
  · rintro ⟨last, yields, closes, rfl⟩
    exact ⟨tree, last, yields, closes, rfl, rfl⟩

/-- A name alone is a reference, and with arguments it is a call. -/
theorem yields_referenceRest {name : String} :
    (referenceRest grammar name).Yields state tree after ↔
      (state.current.kind ≠ .openParen ∧ tree = .reference name ∧ after = state) ∨
      (state.current.kind = .openParen ∧ state.advance.current.kind = .closeParen ∧
        tree = .call name [] ∧ after = state.advance.advance) ∨
      (state.current.kind = .openParen ∧ state.advance.current.kind ≠ .closeParen ∧
        ∃ given, (arguments grammar).Yields state.advance given after ∧ tree = .call name given) := by
  rw [referenceRest_eq, yields_current_bind]
  by_cases opens : state.current.kind = .openParen
  · by_cases closes : state.advance.current.kind = .closeParen
    · simp [opens, closes]
    · simp only [opens, closes, if_true, if_false, yields_advance_bind, yields_current_bind, ne_eq,
        not_true_eq_false, not_false_eq_true, false_and, true_and, false_or]
      exact yields_wrap
  · simp [opens]

/-- Arguments are an expression before a closing parenthesis, or before a comma and arguments. -/
theorem yields_arguments {given : List Expr} :
    (arguments grammar).Yields state given after ↔
      ∃ first middle, (expr grammar).Yields state first middle ∧
        ((middle.current.kind = .closeParen ∧ given = [first] ∧ after = middle.advance) ∨
          (middle.current.kind = .comma ∧
            ∃ others, (arguments grammar).Yields middle.advance others after ∧
              given = first :: others)) := by
  conv => lhs; rw [arguments_eq]
  rw [yields_bind]
  refine exists_congr fun first => exists_congr fun middle => and_congr_right fun _ => ?_
  rw [yields_current_bind]
  by_cases closes : middle.current.kind = .closeParen
  · simp [closes]
  · by_cases goesOn : middle.current.kind = .comma
    · simp only [goesOn, reduceCtorEq, if_false, if_true, yields_advance_bind, false_and, true_and,
        false_or]
      exact yields_wrap
    · simp [closes, goesOn]

/-- An operand is extended where a tighter operator follows it. -/
theorem yields_extended {power : Int} {first : Expr} :
    (extended grammar power first).Yields state tree after ↔
      (power < grammar.bindingPower state.current ∧
        (chain grammar (power + 1) first).Yields state tree after) ∨
      (grammar.bindingPower state.current ≤ power ∧ tree = first ∧ after = state) := by
  rw [extended, yields_current_bind]
  by_cases tighter : power < grammar.bindingPower state.current
  · simp [tighter, Int.not_le.mpr tighter]
  · simp [tighter, Int.not_lt.mp tighter]

/-- A chain ends before an operator that is too loose, or joins one more operand and goes on. -/
theorem yields_chain {minimum : Int} {left : Expr} :
    (chain grammar minimum left).Yields state tree after ↔
      (grammar.bindingPower state.current < minimum ∧ tree = left ∧ after = state) ∨
      (minimum ≤ grammar.bindingPower state.current ∧
        ∃ first middle right last, (operand grammar).Yields state.advance first middle ∧
          (extended grammar (grammar.bindingPower state.current) first).Yields middle right last ∧
          (chain grammar minimum (.binary state.current.value left right)).Yields last tree
            after) := by
  rw [chain_eq, yields_current_bind]
  by_cases loose : grammar.bindingPower state.current < minimum
  · simp [loose, Int.not_le.mpr loose]
  · simp only [loose, if_false, yields_advance_bind, false_and, false_or, Int.not_lt.mp loose,
      true_and]
    rw [yields_bind]
    simp only [@yields_bind _ _ (extended _ _ _), yields_record_bind]
    constructor
    · rintro ⟨first, middle, operand, right, last, extended, chain⟩
      exact ⟨first, middle, right, last, operand, extended, chain⟩
    · rintro ⟨first, middle, right, last, operand, extended, chain⟩
      exact ⟨first, middle, operand, right, last, extended, chain⟩

/-! ### Operands, kind by kind -/

theorem yields_operand_of_number {value : Binary64} (kind : state.current.kind = .number)
    (numeral : Numeral.read? state.current.value.toList = some value) :
    (operand grammar).Yields state (.number value) state.advance :=
  yields_operand.mpr (Or.inl ⟨kind, yields_number.mpr ⟨value, numeral, rfl, rfl⟩⟩)

theorem yields_operand_of_reference (kind : state.current.kind = .identifier)
    (noCall : state.advance.current.kind ≠ .openParen) :
    (operand grammar).Yields state (.reference state.current.value) state.advance :=
  yields_operand.mpr (Or.inr (Or.inl ⟨kind,
    yields_referenceRest.mpr (Or.inl ⟨noCall, rfl, rfl⟩)⟩))

theorem yields_operand_of_emptyCall (kind : state.current.kind = .identifier)
    (opens : state.advance.current.kind = .openParen)
    (closes : state.advance.advance.current.kind = .closeParen) :
    (operand grammar).Yields state (.call state.current.value []) state.advance.advance.advance :=
  yields_operand.mpr (Or.inr (Or.inl ⟨kind,
    yields_referenceRest.mpr (Or.inr (Or.inl ⟨opens, closes, rfl, rfl⟩))⟩))

theorem yields_operand_of_call {given : List Expr} (kind : state.current.kind = .identifier)
    (opens : state.advance.current.kind = .openParen)
    (someGiven : state.advance.advance.current.kind ≠ .closeParen)
    (arguments : (arguments grammar).Yields state.advance.advance given after) :
    (operand grammar).Yields state (.call state.current.value given) after :=
  yields_operand.mpr (Or.inr (Or.inl ⟨kind,
    yields_referenceRest.mpr (Or.inr (Or.inr ⟨opens, someGiven, given, arguments, rfl⟩))⟩))

theorem yields_operand_of_group (opens : state.current.kind = .openParen)
    (inner : (expr grammar).Yields state.advance tree after)
    (closes : after.current.kind = .closeParen) :
    (operand grammar).Yields state tree after.advance :=
  yields_operand.mpr (Or.inr (Or.inr ⟨opens, yields_groupRest.mpr ⟨after, inner, closes, rfl⟩⟩))

/-! ### Tokens used up -/

/-- A bounded reply that yields leaves fewer tokens than its bound. -/
theorem Yields.remaining_lt {α : Type} {parser : Parser α} {value : α} {passed failed : Nat}
    (yields : parser.Yields state value after)
    (bounded : (parser state).LeavesFewer passed failed) : after.remaining < passed := by
  obtain ⟨trace, reply⟩ := yields
  rw [reply] at bounded
  exact bounded

theorem remaining_of_yields_expr (yields : (expr grammar).Yields state tree after) :
    after.remaining < state.remaining :=
  yields.remaining_lt (boundedExpr grammar state).bounded

theorem remaining_of_yields_operand (yields : (operand grammar).Yields state tree after) :
    after.remaining < state.remaining :=
  yields.remaining_lt (boundedOperand grammar state).bounded

theorem remaining_of_yields_chain {minimum : Int} {left : Expr}
    (yields : (chain grammar minimum left).Yields state tree after) :
    after.remaining ≤ state.remaining :=
  Nat.le_of_lt_succ (yields.remaining_lt (boundedChain grammar minimum left state).bounded)

theorem remaining_of_yields_extended {power : Int} {first : Expr}
    (yields : (extended grammar power first).Yields state tree after) :
    after.remaining ≤ state.remaining := by
  rcases yields_extended.mp yields with ⟨_, chain⟩ | ⟨_, _, rfl⟩
  · exact remaining_of_yields_chain chain
  · exact Nat.le_refl _

/-! ### Induction -/

/-- **Induction over the expression parsers.** The motives are properties of the states in which the
parsers start; each case may assume them where that parser calls another one or itself. -/
theorem expr_induction (grammar : Grammar)
    {onExpr onOperand onGroupRest onArguments : ParseState → Prop}
    {onReferenceRest : String → ParseState → Prop} {onChain : Int → Expr → ParseState → Prop}
    (opened : ∀ state : ParseState, onOperand state.deeper →
      (∀ (first : Expr) (middle : ParseState),
        (operand grammar).Yields state.deeper first middle → onChain 0 first middle) →
      onExpr state)
    (number : ∀ state : ParseState, state.current.kind = .number → onOperand state)
    (identifier : ∀ state : ParseState, state.current.kind = .identifier →
      onReferenceRest state.current.value state.advance → onOperand state)
    (openParen : ∀ state : ParseState, state.current.kind = .openParen →
      onGroupRest state.advance → onOperand state)
    (noOperand : ∀ state : ParseState, state.current.kind ≠ .number →
      state.current.kind ≠ .identifier → state.current.kind ≠ .openParen → onOperand state)
    (groupRest : ∀ state : ParseState, onExpr state → onGroupRest state)
    (reference : ∀ (name : String) (state : ParseState), state.current.kind ≠ .openParen →
      onReferenceRest name state)
    (emptyCall : ∀ (name : String) (state : ParseState), state.current.kind = .openParen →
      state.advance.current.kind = .closeParen → onReferenceRest name state)
    (call : ∀ (name : String) (state : ParseState), state.current.kind = .openParen →
      state.advance.current.kind ≠ .closeParen → onArguments state.advance →
      onReferenceRest name state)
    (arguments : ∀ state : ParseState, onExpr state →
      (∀ (first : Expr) (middle : ParseState),
        (expr grammar).Yields state first middle → onArguments middle.advance) →
      onArguments state)
    (stop : ∀ (minimum : Int) (left : Expr) (state : ParseState),
      grammar.bindingPower state.current < minimum → onChain minimum left state)
    (fold : ∀ (minimum : Int) (left : Expr) (state : ParseState),
      minimum ≤ grammar.bindingPower state.current → onOperand state.advance →
      (∀ (first : Expr) (middle : ParseState),
        (operand grammar).Yields state.advance first middle →
        onChain (grammar.bindingPower state.current + 1) first middle) →
      (∀ (first : Expr) (middle : ParseState) (right : Expr) (last : ParseState),
        (operand grammar).Yields state.advance first middle →
        (extended grammar (grammar.bindingPower state.current) first).Yields middle right last →
        onChain minimum (.binary state.current.value left right) last) →
      onChain minimum left state) :
    (∀ state : ParseState, onExpr state) ∧
      (∀ (minimum : Int) (left : Expr) (state : ParseState), onChain minimum left state) ∧
      (∀ state : ParseState, onOperand state) ∧ (∀ state : ParseState, onGroupRest state) ∧
      (∀ (name : String) (state : ParseState), onReferenceRest name state) ∧
      (∀ state : ParseState, onArguments state) := by
  refine boundedExpr.mutual_induct grammar onExpr onChain onOperand onGroupRest onReferenceRest
    onArguments ?_ stop ?_ number ?_ ?_ noOperand groupRest ?_ ?_ reference ?_
  · intro state onOperand onChain
    refine opened state (onOperand _ rfl) fun first middle yields => ?_
    exact onChain state.deeper rfl first middle (remaining_of_yields_operand yields)
  · intro minimum left state power tight _ onOperand onInner onRest
    refine fold minimum left state (Int.not_lt.mp tight) onOperand ?_ ?_
    · intro first middle yields
      exact onInner first middle (remaining_of_yields_operand yields)
    · intro first middle right last yields extended
      refine onRest middle (remaining_of_yields_operand yields) right last ?_
      exact Nat.lt_succ_of_le (remaining_of_yields_extended extended)
  · exact fun state kind _ onReferenceRest => identifier state kind onReferenceRest
  · exact fun state kind _ onGroupRest => openParen state kind onGroupRest
  · exact fun name state opens _ closes => emptyCall name state opens closes
  · exact fun name state opens _ closes onArguments => call name state opens closes onArguments
  · intro state onExpr onRest
    refine arguments state onExpr fun first middle yields => ?_
    exact onRest middle (remaining_of_yields_expr yields)

end OpLang.Parser
