/-
**The parsers in step.**

Run from states that a simulation relates, the parsers of expressions, prototypes and items mirror
each other: the second run reads the same trees with their names renamed (`Expr.renamed`,
`Item.renamed`), or fails where the first one fails. For expressions this is an induction over the
parsers of the first run (`parsers_mirror`); the thresholds of the two runs may differ, as long as the
same operators are looser (`Agrees`).
-/

import OpLang.Proofs.Expr.Chain
import OpLang.Proofs.Item.Yields
import OpLang.Proofs.Parser.Simulation

namespace OpLang

/-! ### Renaming -/

namespace Expr

mutual

/-- A tree with its names renamed; operators and numbers stay. -/
def renamed (rename : String → String) : Expr → Expr
  | .number value => .number value
  | .reference name => .reference (rename name)
  | .binary operator left right => .binary operator (left.renamed rename) (right.renamed rename)
  | .call callee arguments => .call (rename callee) (renamedAll rename arguments)

/-- Trees with their names renamed. -/
def renamedAll (rename : String → String) : List Expr → List Expr
  | [] => []
  | first :: others => first.renamed rename :: renamedAll rename others

end

mutual

@[simp]
theorem renamed_id : (tree : Expr) → tree.renamed id = tree
  | .number _ => rfl
  | .reference _ => rfl
  | .binary operator left right => by
    rw [renamed, renamed_id left, renamed_id right]
  | .call callee arguments => by
    rw [renamed, renamedAll_id arguments]
    rfl

@[simp]
theorem renamedAll_id : (trees : List Expr) → renamedAll id trees = trees
  | [] => rfl
  | first :: others => by
    rw [renamedAll, renamed_id first, renamedAll_id others]

end

end Expr

/-- A prototype with its names renamed. -/
def Prototype.renamed (rename : String → String) (signature : Prototype) : Prototype :=
  ⟨rename signature.name, signature.parameters.map rename⟩

/-- A function with the names in its prototype and body renamed. -/
def Function.renamed (rename : String → String) (function : Function) : Function :=
  ⟨function.prototype.renamed rename, function.body.renamed rename⟩

namespace Item

/-- An item with its names renamed; the anonymous prototype of an expression stays. -/
def renamed (rename : String → String) : Item → Item
  | .definition function => .definition (function.renamed rename)
  | .external signature => .external (signature.renamed rename)
  | .expression function => .expression ⟨function.prototype, function.body.renamed rename⟩

@[simp]
theorem renamed_id (item : Item) : item.renamed id = item := by
  cases item <;> simp [renamed, Function.renamed, Prototype.renamed]

@[simp]
theorem event_renamed (rename : String → String) (item : Item) :
    (item.renamed rename).event = item.event := by
  cases item <;> rfl

end Item

namespace Simulation

open OpLang.Parser

variable {grammar grammar' : Grammar} {simulation : Simulation grammar grammar'}
variable {state state' : ParseState}

/-! ### Thresholds -/

/-- Whether two thresholds part the same operators. -/
structure Agrees (simulation : Simulation grammar grammar') (minimum minimum' : Int) : Prop where
  valid : 0 ≤ minimum
  valid' : 0 ≤ minimum'
  looser_iff : ∀ {token token' : Token}, simulation.alike token token' →
    (grammar.bindingPower token < minimum ↔ grammar'.bindingPower token' < minimum')

theorem agrees_zero : simulation.Agrees 0 0 :=
  ⟨Int.le_refl 0, Int.le_refl 0, simulation.loose_iff⟩

/-- The thresholds above operators that are alike part the same operators. -/
theorem agrees_above {operator operator' : Token} (alike : simulation.alike operator operator')
    (tight : 0 ≤ grammar.bindingPower operator) :
    simulation.Agrees (grammar.bindingPower operator + 1) (grammar'.bindingPower operator' + 1) := by
  have loose := simulation.loose_iff alike
  refine ⟨by omega, by omega, ?_⟩
  intro token token' alike'
  have looser := simulation.looser_iff alike alike'
  omega

/-! ### Expressions -/

theorem operand_of_noOperand {grammar : Grammar} {state : ParseState}
    (noNumber : state.current.kind ≠ .number) (noName : state.current.kind ≠ .identifier)
    (noGroup : state.current.kind ≠ .openParen) :
    operand grammar state = failHere .noExpression state := by
  rw [operand_eq, current_bind]
  cases kind : state.current.kind <;> simp_all

variable (simulation) in
/-- **The expression parsers mirror each other.** -/
theorem parsers_mirror :
    (∀ state state', simulation.meets state state' →
      simulation.Mirrors (Expr.renamed simulation.rename) (expr grammar) (expr grammar') state
        state') ∧
    (∀ (minimum : Int) (left : Expr) (state : ParseState) (minimum' : Int) (state' : ParseState),
      simulation.Agrees minimum minimum' → simulation.meets state state' →
      simulation.Mirrors (Expr.renamed simulation.rename) (chain grammar minimum left)
        (chain grammar' minimum' (left.renamed simulation.rename)) state state') ∧
    (∀ state state', simulation.meets state state' →
      simulation.Mirrors (Expr.renamed simulation.rename) (operand grammar) (operand grammar') state
        state') ∧
    (∀ state state', simulation.meets state state' →
      simulation.Mirrors (Expr.renamed simulation.rename) (groupRest grammar) (groupRest grammar')
        state state') ∧
    (∀ (name : String) (state state' : ParseState), simulation.meets state state' →
      simulation.Mirrors (Expr.renamed simulation.rename) (referenceRest grammar name)
        (referenceRest grammar' (simulation.rename name)) state state') ∧
    (∀ state state', simulation.meets state state' →
      simulation.Mirrors (Expr.renamedAll simulation.rename) (arguments grammar)
        (arguments grammar') state state') := by
  refine expr_induction grammar ?opened ?number ?identifier ?openParen ?noOperand ?groupRest
    ?reference ?emptyCall ?call ?arguments ?stop ?fold
  case opened =>
    intro state onOperand onChain state' meets
    rw [expr_eq, expr_eq]
    refine Mirrors.nested meets (.bind (onOperand _ (simulation.deeper meets)) ?_)
    intro first middle middle' yields meets'
    exact onChain first middle yields 0 middle' agrees_zero meets'
  case number =>
    intro state kind state' meets
    have alike := simulation.current meets
    have kind' := current_kind_of meets kind rfl
    have meets' := simulation.advance meets (by simp [kind])
    rw [operand_eq, operand_eq, mirrors_current_bind]
    simp only [kind, kind']
    have same : Numeral.read? state'.current.value.toList =
        Numeral.read? state.current.value.toList := by
      rw [simulation.number_eq alike kind]
    rw [Parser.number, mirrors_advance_bind, same]
    cases Numeral.read? state.current.value.toList with
    | some value => exact mirrors_pure meets' rfl
    | none => exact .failed (.number alike kind) meets'
  case identifier =>
    intro state kind onReferenceRest state' meets
    have kind' := current_kind_of meets kind rfl
    rw [operand_eq, operand_eq, mirrors_current_bind]
    simp only [kind, kind', Parser.reference]
    rw [mirrors_advance_bind, simulation.name_eq (simulation.current meets) kind]
    exact onReferenceRest _ (simulation.advance meets (by simp [kind]))
  case openParen =>
    intro state kind onGroupRest state' meets
    have kind' := current_kind_of meets kind rfl
    rw [operand_eq, operand_eq, mirrors_current_bind]
    simp only [kind, kind', Parser.group]
    rw [mirrors_advance_bind]
    exact onGroupRest _ (simulation.advance meets (by simp [kind]))
  case noOperand =>
    intro state noNumber noName noGroup state' meets
    unfold Mirrors
    rw [operand_of_noOperand noNumber noName noGroup,
      operand_of_noOperand (current_kind_ne_of meets noNumber rfl)
        (current_kind_ne_of meets noName rfl) (current_kind_ne_of meets noGroup rfl)]
    exact mirrors_failHere meets (fun _ => rfl) fun _ _ => rfl
  case groupRest =>
    intro state onExpr state' meets
    rw [groupRest_eq, groupRest_eq]
    refine .bind (onExpr _ meets) fun inner middle middle' _ meets' => ?_
    exact mirrors_expect_bind meets' rfl fun _ meets'' => mirrors_pure meets'' rfl
  case reference =>
    intro name state noCall state' meets
    have noCall' := current_kind_ne_of meets noCall rfl
    rw [referenceRest_eq, referenceRest_eq, mirrors_current_bind, if_neg noCall, if_neg noCall']
    exact mirrors_pure meets rfl
  case emptyCall =>
    intro name state opens closes state' meets
    have opens' := current_kind_of meets opens rfl
    have inside := simulation.advance meets (by simp [opens])
    have closes' := current_kind_of inside closes rfl
    rw [referenceRest_eq, referenceRest_eq, mirrors_current_bind, if_pos opens, if_pos opens',
      mirrors_advance_bind, mirrors_current_bind, if_pos closes, if_pos closes',
      mirrors_advance_bind]
    exact mirrors_pure (simulation.advance inside (by simp [closes])) rfl
  case call =>
    intro name state opens given onArguments state' meets
    have opens' := current_kind_of meets opens rfl
    have inside := simulation.advance meets (by simp [opens])
    have given' := current_kind_ne_of inside given rfl
    rw [referenceRest_eq, referenceRest_eq, mirrors_current_bind, if_pos opens, if_pos opens',
      mirrors_advance_bind, mirrors_current_bind, if_neg given, if_neg given']
    exact .bind (onArguments _ inside) fun _ _ _ _ meets' => mirrors_pure meets' rfl
  case arguments =>
    intro state onExpr onRest state' meets
    rw [arguments_eq grammar, arguments_eq grammar']
    refine .bind (onExpr _ meets) fun first middle middle' yields meets' => ?_
    rw [mirrors_current_bind]
    by_cases closes : middle.current.kind = .closeParen
    · have closes' := current_kind_of meets' closes rfl
      rw [if_pos closes, if_pos closes', mirrors_advance_bind]
      exact mirrors_pure (simulation.advance meets' (by simp [closes])) rfl
    · have more' := current_kind_ne_of meets' closes rfl
      rw [if_neg closes, if_neg more']
      by_cases goesOn : middle.current.kind = .comma
      · have goesOn' := current_kind_of meets' goesOn rfl
        rw [if_pos goesOn, if_pos goesOn', mirrors_advance_bind]
        refine .bind (onRest first middle yields _ ?_) fun _ _ _ _ after => mirrors_pure after rfl
        exact simulation.advance meets' (by simp [goesOn])
      · rw [if_neg goesOn, if_neg (current_kind_ne_of meets' goesOn rfl)]
        exact mirrors_notDue meets'
  case stop =>
    intro minimum left state loose minimum' state' agrees meets
    have loose' := (agrees.looser_iff (simulation.current meets)).mp loose
    rw [chain_eq, chain_eq, mirrors_current_bind]
    simp only [if_pos loose, if_pos loose']
    exact mirrors_pure meets rfl
  case fold =>
    intro minimum left state tight onOperand onInner onRest minimum' state' agrees meets
    have alike := simulation.current meets
    have valid := agrees.valid
    obtain ⟨precedence, joins⟩ := Grammar.joins_of_bindingPower (Int.le_trans valid tight)
    have notLoose := Int.not_lt.mpr tight
    have notLoose' := mt (agrees.looser_iff alike).mpr notLoose
    rw [chain_eq, chain_eq, mirrors_current_bind]
    simp only [if_neg notLoose, if_neg notLoose']
    rw [mirrors_advance_bind, simulation.operator_eq alike joins.1]
    have inside := simulation.advance meets (by simp [joins.1])
    refine .bind (onOperand _ inside) fun first middle middle' yields meets' => ?_
    have onExtended : simulation.Mirrors (Expr.renamed simulation.rename)
        (extended grammar (grammar.bindingPower state.current) first)
        (extended grammar' (grammar'.bindingPower state'.current) (first.renamed simulation.rename))
        middle middle' := by
      rw [extended, extended, mirrors_current_bind]
      have looser := simulation.looser_iff alike (simulation.current meets')
      by_cases tighter : grammar.bindingPower state.current < grammar.bindingPower middle.current
      · rw [if_pos tighter, if_pos (looser.mp tighter)]
        exact onInner first middle yields _ _ (agrees_above alike (Int.le_trans valid tight)) meets'
      · rw [if_neg tighter, if_neg (mt looser.mpr tighter)]
        exact mirrors_pure meets' rfl
    refine .bind onExtended fun right last last' extension meets'' => .record_bind ?_
    exact onRest first middle right last yields extension _ _ agrees meets''

variable (simulation) in
theorem expr_mirrors (meets : simulation.meets state state') :
    simulation.Mirrors (Expr.renamed simulation.rename) (expr grammar) (expr grammar') state
      state' :=
  simulation.parsers_mirror.1 state state' meets

/-! ### Prototypes and items -/

variable (simulation) in
theorem parameters_mirror (meets : simulation.meets state state') :
    simulation.Mirrors (List.map simulation.rename) parameters parameters state state' := by
  induction tokens : state.remaining using Nat.strongRecOn generalizing state state' with
  | ind tokens ih =>
    subst tokens
    rw [parameters_eq]
    refine mirrors_expect_bind meets rfl fun name inside => ?_
    have more : 0 < state.remaining := ParseState.remaining_pos (by simp [name])
    have same := simulation.name_eq (simulation.current meets) name
    rw [mirrors_current_bind]
    by_cases closes : state.advance.current.kind = .closeParen
    · have closes' := current_kind_of inside closes rfl
      rw [if_pos closes, if_pos closes', mirrors_advance_bind]
      refine mirrors_pure (simulation.advance inside (by simp [closes])) ?_
      rw [same]
      rfl
    · rw [if_neg closes, if_neg (current_kind_ne_of inside closes rfl)]
      by_cases goesOn : state.advance.current.kind = .comma
      · have goesOn' := current_kind_of inside goesOn rfl
        have further := simulation.advance inside (by simp [goesOn])
        have fewer : state.advance.advance.remaining < state.remaining := by
          simp
          omega
        rw [if_pos goesOn, if_pos goesOn', mirrors_advance_bind]
        refine .bind (ih _ fewer further rfl) fun others _ _ _ after => mirrors_pure after ?_
        rw [same]
        rfl
      · rw [if_neg goesOn, if_neg (current_kind_ne_of inside goesOn rfl)]
        exact mirrors_notDue inside

variable (simulation) in
theorem prototype_mirrors (meets : simulation.meets state state') :
    simulation.Mirrors (Prototype.renamed simulation.rename) prototype prototype state state' := by
  refine mirrors_expect_bind meets rfl fun name inside => ?_
  refine mirrors_expect_bind inside rfl fun _ inside' => ?_
  have same := simulation.name_eq (simulation.current meets) name
  rw [mirrors_current_bind]
  by_cases closes : state.advance.advance.current.kind = .closeParen
  · have closes' := current_kind_of inside' closes rfl
    rw [if_pos closes, if_pos closes', mirrors_advance_bind]
    refine mirrors_pure (simulation.advance inside' (by simp [closes])) ?_
    rw [same]
    rfl
  · rw [if_neg closes, if_neg (current_kind_ne_of inside' closes rfl)]
    refine .bind (simulation.parameters_mirror inside') fun names _ _ _ after =>
      mirrors_pure after ?_
    rw [same]
    rfl

theorem item_of_expression {grammar : Grammar} {state : ParseState}
    (noDefinition : state.current.kind ≠ .defKeyword)
    (noExternal : state.current.kind ≠ .externKeyword) :
    item grammar state =
      (anonymousFunction grammar >>= fun function => pure (.expression function)) state := by
  rw [item, current_bind]
  cases kind : state.current.kind <;> simp_all

variable (simulation) in
/-- **Items mirror each other.** -/
theorem item_mirrors (meets : simulation.meets state state') :
    simulation.Mirrors (Item.renamed simulation.rename) (item grammar) (item grammar') state
      state' := by
  by_cases defines : state.current.kind = .defKeyword
  · have defines' := current_kind_of meets defines rfl
    have onDefinition : simulation.Mirrors (Function.renamed simulation.rename)
        (definition grammar) (definition grammar') state state' := by
      have inside := simulation.advance meets (by simp [defines])
      rw [definition, definition, mirrors_advance_bind]
      refine .bind (simulation.prototype_mirrors inside) fun _ _ _ _ meets' => ?_
      exact .bind (simulation.expr_mirrors meets') fun _ _ _ _ after => mirrors_pure after rfl
    rw [item, item, mirrors_current_bind]
    simp only [defines, defines']
    exact .bind onDefinition fun _ _ _ _ after => mirrors_pure after rfl
  · by_cases declares : state.current.kind = .externKeyword
    · have declares' := current_kind_of meets declares rfl
      have onExternal : simulation.Mirrors (Prototype.renamed simulation.rename) external external
          state state' := by
        rw [external, mirrors_advance_bind]
        exact simulation.prototype_mirrors (simulation.advance meets (by simp [declares]))
      rw [item, item, mirrors_current_bind]
      simp only [declares, declares']
      exact .bind onExternal fun _ _ _ _ after => mirrors_pure after rfl
    · have onExpression : simulation.Mirrors
          (fun function : Function =>
            ⟨function.prototype, function.body.renamed simulation.rename⟩)
          (anonymousFunction grammar) (anonymousFunction grammar') state state' :=
        .bind (simulation.expr_mirrors meets) fun _ _ _ _ after => mirrors_pure after rfl
      unfold Mirrors
      rw [item_of_expression defines declares,
        item_of_expression (current_kind_ne_of meets defines rfl)
          (current_kind_ne_of meets declares rfl)]
      exact onExpression.bind fun _ _ _ _ after => mirrors_pure after rfl

end Simulation

end OpLang
