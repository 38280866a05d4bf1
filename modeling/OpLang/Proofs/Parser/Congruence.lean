/-
**What holds of the operations holds of the parsers.**

A `Congruence` relates parsers of two grammars that have the same operators and differ at most in the
limit of nesting. It has a clause for each operation that parsers are composed of: single operations
are related to themselves, sequences if their parts are, nested parsers if the inner ones are. No
parser takes an end, so taking a token has to be related to itself only where another token stands. A
property of the parsers of one grammar is the case in which both grammars are that one.

The parsers of expressions, prototypes and items are composed of nothing else, so every congruence
relates each of them to its like (`parsers_related`, `item_related`). The induction over their
recursion is done here, once for all properties of this form.
-/

import OpLang.Proofs.Expr.Chain
import OpLang.Proofs.Item.Yields

namespace OpLang.Parser

variable {α β : Type} {state after : ParseState}

/-! ### What reading yields -/

@[simp]
theorem yields_current {value : Token} :
    current.Yields state value after ↔ value = state.current ∧ after = state := by
  constructor
  · rintro ⟨trace, reply⟩
    cases reply
    exact ⟨rfl, rfl⟩
  · rintro ⟨rfl, rfl⟩
    exact ⟨[], rfl⟩

@[simp]
theorem yields_advance {value : Token} :
    advance.Yields state value after ↔ value = state.current ∧ after = state.advance := by
  constructor
  · rintro ⟨trace, reply⟩
    cases reply
    exact ⟨rfl, rfl⟩
  · rintro ⟨rfl, rfl⟩
    exact ⟨[], rfl⟩

/-- Expecting a token is looking at it, and taking it or failing. -/
theorem expect_eq (kind : Token.Kind) (complaint : String) :
    expect kind complaint = (do
      let token ← current
      if token.kind = kind then advance else failHere (.notDue complaint)) := by
  funext state
  rw [current_bind, expect]
  split <;> rfl

/-! ### Congruences -/

/-- A relation of the parsers of two grammars, at a state, that every operation on parsers keeps. -/
structure Congruence (grammar grammar' : Grammar) where
  Related : {α : Type} → Parser α → Parser α → ParseState → Prop
  table_eq : grammar'.table = grammar.table
  related_pure : ∀ {α : Type} (value : α) (state : ParseState),
    Related (pure value) (pure value) state
  related_bind : ∀ {α β : Type} {first first' : Parser α} {next next' : α → Parser β}
    {state : ParseState}, Related first first' state →
    (∀ value middle, first.Yields state value middle → Related (next value) (next' value) middle) →
    Related (first >>= next) (first' >>= next') state
  related_current : ∀ state : ParseState, Related current current state
  related_advance : ∀ state : ParseState, state.current.kind ≠ .eof → Related advance advance state
  related_number : ∀ state : ParseState, state.current.kind = .number → Related number number state
  related_noExpression : ∀ {α : Type} (state : ParseState),
    Related (failHere .noExpression : Parser α) (failHere .noExpression) state
  related_notDue : ∀ {α : Type} (complaint : String) (state : ParseState),
    Related (failHere (.notDue complaint) : Parser α) (failHere (.notDue complaint)) state
  related_fold : ∀ (operator : String) (power : Int) (state : ParseState),
    Related (record (.fold operator power)) (record (.fold operator power)) state
  related_nested : ∀ {α : Type} {inner inner' : Parser α} {state : ParseState},
    Related inner inner' state.deeper →
    Related (nested grammar inner) (nested grammar' inner') state

namespace Congruence

variable {grammar grammar' : Grammar}

theorem bindingPower_eq (congruence : Congruence grammar grammar') (token : Token) :
    grammar'.bindingPower token = grammar.bindingPower token := by
  unfold Grammar.bindingPower
  rw [congruence.table_eq]

/-! ### Sequences that begin with a single operation -/

variable {congruence : Congruence grammar grammar'}

theorem related_current_bind {next next' : Token → Parser β}
    (onNext : congruence.Related (next state.current) (next' state.current) state) :
    congruence.Related (current >>= next) (current >>= next') state := by
  refine congruence.related_bind (congruence.related_current state) ?_
  intro token middle yields
  obtain ⟨rfl, rfl⟩ := yields_current.mp yields
  exact onNext

theorem related_advance_bind {next next' : Token → Parser β} (more : state.current.kind ≠ .eof)
    (onNext : congruence.Related (next state.current) (next' state.current) state.advance) :
    congruence.Related (advance >>= next) (advance >>= next') state := by
  refine congruence.related_bind (congruence.related_advance state more) ?_
  intro token middle yields
  obtain ⟨rfl, rfl⟩ := yields_advance.mp yields
  exact onNext

theorem related_expect_bind {kind : Token.Kind} {complaint : String} {next next' : Token → Parser β}
    (inner : kind ≠ .eof) (onNext : state.current.kind = kind →
      congruence.Related (next state.current) (next' state.current) state.advance) :
    congruence.Related (expect kind complaint >>= next) (expect kind complaint >>= next') state := by
  have onExpect : congruence.Related (expect kind complaint) (expect kind complaint) state := by
    rw [expect_eq]
    refine related_current_bind ?_
    split
    · rename_i due
      exact congruence.related_advance state (by rw [due]; exact inner)
    · exact congruence.related_notDue complaint state
  refine congruence.related_bind onExpect ?_
  intro token middle yields
  rw [← bind_pure (expect kind complaint), yields_expect_bind] at yields
  obtain ⟨due, yields⟩ := yields
  obtain ⟨rfl, rfl⟩ := yields_pure.mp yields
  exact onNext due

/-- The value of related parsers may be wrapped. -/
theorem related_wrap {parser parser' : Parser α} {wrap : α → β}
    (related : congruence.Related parser parser' state) :
    congruence.Related (parser >>= fun value => pure (wrap value))
      (parser' >>= fun value => pure (wrap value)) state :=
  congruence.related_bind related fun value middle _ => congruence.related_pure (wrap value) middle

variable (congruence)

/-! ### Expressions -/

/-- **Every congruence relates the expression parsers** of its two grammars. -/
theorem parsers_related :
    (∀ state, congruence.Related (expr grammar) (expr grammar') state) ∧
    (∀ (minimum : Int) left state, 0 ≤ minimum →
      congruence.Related (chain grammar minimum left) (chain grammar' minimum left) state) ∧
    (∀ state, congruence.Related (operand grammar) (operand grammar') state) ∧
    (∀ state, congruence.Related (groupRest grammar) (groupRest grammar') state) ∧
    (∀ name state,
      congruence.Related (referenceRest grammar name) (referenceRest grammar' name) state) ∧
    (∀ state, congruence.Related (arguments grammar) (arguments grammar') state) := by
  refine expr_induction grammar ?opened ?number ?identifier ?openParen ?noOperand ?groupRest
    ?reference ?emptyCall ?call ?arguments ?stop ?fold
  case opened =>
    intro state onOperand onChain
    rw [expr_eq, expr_eq]
    refine congruence.related_nested (congruence.related_bind onOperand ?_)
    exact fun first middle yields => onChain first middle yields (Int.le_refl 0)
  case number =>
    intro state kind
    rw [operand_eq, operand_eq]
    refine related_current_bind ?_
    simpa only [kind] using congruence.related_number state kind
  case identifier =>
    intro state kind onReferenceRest
    rw [operand_eq, operand_eq]
    refine related_current_bind ?_
    simp only [kind]
    exact related_advance_bind (by simp [kind]) onReferenceRest
  case openParen =>
    intro state kind onGroupRest
    rw [operand_eq, operand_eq]
    refine related_current_bind ?_
    simp only [kind]
    exact related_advance_bind (by simp [kind]) onGroupRest
  case noOperand =>
    intro state noNumber noName noGroup
    rw [operand_eq, operand_eq]
    refine related_current_bind ?_
    have fails : congruence.Related (failHere .noExpression : Parser Expr)
        (failHere .noExpression) state := congruence.related_noExpression state
    cases kind : state.current.kind <;> simp_all
  case groupRest =>
    intro state onExpr
    rw [groupRest_eq, groupRest_eq]
    refine congruence.related_bind onExpr fun inner middle _ => ?_
    exact related_expect_bind nofun fun _ => congruence.related_pure inner _
  case reference =>
    intro name state noCall
    rw [referenceRest_eq, referenceRest_eq]
    refine related_current_bind ?_
    rw [if_neg noCall, if_neg noCall]
    exact congruence.related_pure _ state
  case emptyCall =>
    intro name state opens closes
    rw [referenceRest_eq, referenceRest_eq]
    refine related_current_bind ?_
    rw [if_pos opens, if_pos opens]
    refine related_advance_bind (by simp [opens]) (related_current_bind ?_)
    rw [if_pos closes, if_pos closes]
    exact related_advance_bind (by simp [closes]) (congruence.related_pure _ _)
  case call =>
    intro name state opens given onArguments
    rw [referenceRest_eq, referenceRest_eq]
    refine related_current_bind ?_
    rw [if_pos opens, if_pos opens]
    refine related_advance_bind (by simp [opens]) (related_current_bind ?_)
    rw [if_neg given, if_neg given]
    exact related_wrap onArguments
  case arguments =>
    intro state onExpr onRest
    rw [arguments_eq grammar, arguments_eq grammar']
    refine congruence.related_bind onExpr fun first middle yields => related_current_bind ?_
    by_cases closes : middle.current.kind = .closeParen
    · rw [if_pos closes, if_pos closes]
      exact related_advance_bind (by simp [closes]) (congruence.related_pure _ _)
    · rw [if_neg closes, if_neg closes]
      by_cases goesOn : middle.current.kind = .comma
      · rw [if_pos goesOn, if_pos goesOn]
        exact related_advance_bind (by simp [goesOn]) (related_wrap (onRest first middle yields))
      · rw [if_neg goesOn, if_neg goesOn]
        exact congruence.related_notDue _ middle
  case stop =>
    intro minimum left state loose _
    rw [chain_eq, chain_eq]
    refine related_current_bind ?_
    simp only [congruence.bindingPower_eq, if_pos loose]
    exact congruence.related_pure left state
  case fold =>
    intro minimum left state tight onOperand onInner onRest valid
    obtain ⟨precedence, joins⟩ := Grammar.joins_of_bindingPower (Int.le_trans valid tight)
    rw [chain_eq, chain_eq]
    refine related_current_bind ?_
    simp only [congruence.bindingPower_eq, if_neg (Int.not_lt.mpr tight)]
    refine related_advance_bind (by simp [joins.1]) (congruence.related_bind onOperand ?_)
    intro first middle yields
    have onExtended : congruence.Related
        (extended grammar (grammar.bindingPower state.current) first)
        (extended grammar' (grammar.bindingPower state.current) first) middle := by
      refine related_current_bind ?_
      rw [congruence.bindingPower_eq]
      split
      · exact onInner first middle yields (by omega)
      · exact congruence.related_pure first middle
    refine congruence.related_bind onExtended fun right last extension => ?_
    refine congruence.related_bind (congruence.related_fold _ _ last) fun _ same recorded => ?_
    obtain ⟨trace, reply⟩ := recorded
    cases reply
    exact onRest first middle right last yields extension valid

theorem expr_related (state : ParseState) :
    congruence.Related (expr grammar) (expr grammar') state :=
  congruence.parsers_related.1 state

theorem operand_related (state : ParseState) :
    congruence.Related (operand grammar) (operand grammar') state :=
  congruence.parsers_related.2.2.1 state

/-! ### Prototypes and items -/

theorem parameters_related (state : ParseState) :
    congruence.Related parameters parameters state := by
  induction state using parameters_induction with
  | step state ih =>
    rw [parameters_eq]
    refine related_expect_bind nofun fun name => related_current_bind ?_
    split
    · rename_i closes
      exact related_advance_bind (by simp [closes]) (congruence.related_pure _ _)
    · split
      · rename_i goesOn
        exact related_advance_bind (by simp [goesOn]) (related_wrap (ih name))
      · exact congruence.related_notDue _ _

theorem prototype_related (state : ParseState) :
    congruence.Related prototype prototype state := by
  refine related_expect_bind nofun fun _ => related_expect_bind nofun fun _ => related_current_bind ?_
  split
  · rename_i closes
    exact related_advance_bind (by simp [closes]) (congruence.related_pure _ _)
  · exact related_wrap (congruence.parameters_related _)

theorem definition_related {state : ParseState} (more : state.current.kind ≠ .eof) :
    congruence.Related (definition grammar) (definition grammar') state := by
  refine related_advance_bind more (congruence.related_bind (congruence.prototype_related _) ?_)
  exact fun signature middle _ => related_wrap (congruence.expr_related middle)

theorem external_related {state : ParseState} (more : state.current.kind ≠ .eof) :
    congruence.Related external external state :=
  related_advance_bind more (congruence.prototype_related _)

theorem anonymousFunction_related (state : ParseState) :
    congruence.Related (anonymousFunction grammar) (anonymousFunction grammar') state :=
  related_wrap (congruence.expr_related state)

/-- **Every congruence relates the parsers of items** of its two grammars. -/
theorem item_related (state : ParseState) :
    congruence.Related (item grammar) (item grammar') state := by
  refine related_current_bind ?_
  cases kind : state.current.kind with
  | defKeyword => exact related_wrap (congruence.definition_related (by simp [kind]))
  | externKeyword => exact related_wrap (congruence.external_related (by simp [kind]))
  | _ => exact related_wrap (congruence.anonymousFunction_related state)

end Congruence

end OpLang.Parser
