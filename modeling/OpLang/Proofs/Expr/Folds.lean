/-
**The folds of a parser are the operators of its tree.**

Two operands are joined when the second one is complete, and the tree that is made then may still become
an operand of another one. So the folds of a parser that succeeds are the operators of the tree in
post-order (`Expr.operators`): those of the left operand, those of the right one, the operator itself.

A chain is given a tree in which folds have been made already, and it adds to them. `Records` therefore
compares the folds of a parser, put behind those made before, with the operators of what it replies.
Sequences record if their parts do, and the recursion of the parsers gives the rest
(`expr_records`, `item_records`). Also where a parser fails, every fold that it has made is one of an
operator of the table, at its precedence there.
-/

import OpLang.Proofs.Expr.Limit
import OpLang.Proofs.Item.Yields

namespace OpLang

/-! ### Operators in post-order -/

namespace Expr

mutual

/-- **The operators of a tree in post-order:** left operand, right operand, operator. -/
def operators : Expr → List String
  | .number _ => []
  | .reference _ => []
  | .binary operator left right => left.operators ++ right.operators ++ [operator]
  | .call _ arguments => operatorsAll arguments

/-- The operators of several trees, one after the other. -/
def operatorsAll : List Expr → List String
  | [] => []
  | first :: others => first.operators ++ operatorsAll others

end

end Expr

/-- The operators of an item's body in post-order; without a body there are none. -/
def Item.operators (item : Item) : List String :=
  match item.body? with
  | none => []
  | some body => body.operators

/-! ### Steps that fold -/

namespace Step

/-- The operator by which a step joins two operands. -/
def operator? : Step → Option String
  | .descend _ => none
  | .fold operator _ => some operator

/-- Whether a step joins by an operator of the table only, at its precedence there. -/
def IsKnown (table : PrecedenceTable) : Step → Prop
  | .descend _ => True
  | .fold operator power =>
    ∃ precedence, table.get? operator = some precedence ∧ power = precedence.toNat

end Step

namespace Parser

variable {α β : Type} {table : PrecedenceTable} {grammar : Grammar} {state : ParseState}
variable {before : List String}

/-- **Whether the folds of a parser are shown by its value.** All its folds are known to the table, and
when it replies, the operators folded before and those of its own folds are the ones that the value
shows. -/
structure Records (table : PrecedenceTable) (parser : Parser α) (before : List String)
    (shown : α → List String) (state : ParseState) : Prop where
  known : ∀ step ∈ (parser state).trace, step.IsKnown table
  shows : ∀ value after trace, parser state = .parsed value after trace →
    before ++ trace.filterMap Step.operator? = shown value

namespace Records

variable {shown : α → List String} {shown' : β → List String}

/-- A parser that takes no steps leaves the folds as they were. -/
theorem of_silent {parser : Parser α} (silent : (parser state).trace = [])
    (same : ∀ value after, parser.Yields state value after → shown value = before) :
    Records table parser before shown state := by
  constructor
  · rw [silent]
    exact fun _ none => absurd none List.not_mem_nil
  · intro value after trace reply
    obtain rfl : trace = [] := by
      rw [reply] at silent
      exact silent
    rw [same value after ⟨[], reply⟩]
    exact List.append_nil before

theorem pure {value : α} (same : shown value = before) :
    Records table (pure value) before shown state := by
  apply of_silent rfl
  intro other after yields
  rw [(yields_pure.mp yields).1]
  exact same

theorem failHere {cause : String → Cause} :
    Records table (Parser.failHere cause) before shown state := by
  apply of_silent rfl
  intro value after yields
  exact absurd yields not_yields_failHere

/-- **A sequence records** what its parts record one after the other. -/
theorem bind {first : Parser α} {next : α → Parser β}
    (onFirst : Records table first before shown state)
    (onNext : ∀ value middle, first.Yields state value middle →
      Records table (next value) (shown value) shown' middle) :
    Records table (first >>= next) before shown' state := by
  cases reply : first state with
  | failed diagnostic after trace =>
    have same : (first >>= next) state = .failed diagnostic after trace := by
      rw [bind_apply, reply]
    constructor
    · have known := onFirst.known
      rw [reply] at known
      rw [same]
      exact known
    · intro value last steps replied
      rw [same] at replied
      cases replied
  | parsed value middle trace =>
    have same : (first >>= next) state = (next value middle).precededBy trace := by
      rw [bind_apply, reply]
    have onSecond := onNext value middle ⟨trace, reply⟩
    constructor
    · intro step member
      rw [same, Reply.trace_precededBy] at member
      rcases List.mem_append.mp member with earlier | later
      · have known := onFirst.known
        rw [reply] at known
        exact known step earlier
      · exact onSecond.known step later
    · intro result last steps replied
      rw [same] at replied
      cases following : next value middle with
      | failed diagnostic after others =>
        rw [following] at replied
        cases replied
      | parsed result' after others =>
        rw [following] at replied
        obtain ⟨rfl, rfl, rfl⟩ := Reply.parsed.inj replied
        rw [List.filterMap_append, ← List.append_assoc, onFirst.shows value middle trace reply]
        exact onSecond.shows result' after others following

/-- Folds made still earlier stay in front. -/
theorem behind {parser : Parser α} (records : Records table parser before shown state)
    (earlier : List String) :
    Records table parser (earlier ++ before) (fun value => earlier ++ shown value) state := by
  refine ⟨records.known, fun value after trace reply => ?_⟩
  rw [List.append_assoc, records.shows value after trace reply]

theorem wrap {parser : Parser α} {wrapper : α → β}
    (records : Records table parser before (fun value => shown' (wrapper value)) state) :
    Records table (parser >>= fun value => Pure.pure (wrapper value)) before shown' state :=
  records.bind fun _ _ _ => pure rfl

/-- What a parser records is told by its reply. -/
theorem of_eq {parser parser' : Parser α} {state' : ParseState} (same : parser state = parser' state')
    (records : Records table parser' before shown state') :
    Records table parser before shown state := by
  refine ⟨?_, fun value after trace reply => records.shows value after trace (same.symm.trans reply)⟩
  rw [same]
  exact records.known

theorem current_bind {next : Token → Parser β}
    (onNext : Records table (next state.current) before shown' state) :
    Records table (current >>= next) before shown' state :=
  of_eq (Parser.current_bind next state) onNext

theorem advance_bind {next : Token → Parser β}
    (onNext : Records table (next state.current) before shown' state.advance) :
    Records table (advance >>= next) before shown' state :=
  of_eq (Parser.advance_bind next state) onNext

theorem expect_bind {kind : Token.Kind} {complaint : String} {next : Token → Parser β}
    (onNext : state.current.kind = kind →
      Records table (next state.current) before shown' state.advance) :
    Records table (expect kind complaint >>= next) before shown' state := by
  by_cases due : state.current.kind = kind
  · exact of_eq (expect_bind_of_kind due) (onNext due)
  · exact of_eq (expect_bind_of_ne due) failHere

/-- A fold that is put on record stands behind those made before. -/
theorem record_bind {operator : String} {power : Int} {next : Unit → Parser β}
    (known : (Step.fold operator power).IsKnown table)
    (onNext : Records table (next ()) (before ++ [operator]) shown' state) :
    Records table (record (.fold operator power) >>= next) before shown' state := by
  have onRecord : Records table (record (.fold operator power)) before
      (fun _ => before ++ [operator]) state := by
    refine ⟨fun step member => ?_, fun value after trace reply => ?_⟩
    · obtain rfl := List.mem_singleton.mp member
      exact known
    · cases reply
      rfl
  refine onRecord.bind fun value middle yields => ?_
  obtain ⟨trace, reply⟩ := yields
  cases reply
  exact onNext

theorem nested {inner : Parser α} (onInner : Records table inner before shown state.deeper) :
    Records table (Parser.nested grammar inner) before shown state := by
  by_cases full : grammar.isFull state.depth = true
  · have refused := nested_apply grammar inner state
    rw [if_pos full] at refused
    refine ⟨fun step member => ?_, fun value after trace reply => ?_⟩
    · rw [refused] at member
      obtain rfl := List.mem_singleton.mp member
      trivial
    · rw [refused] at reply
      cases reply
  · have opened := nested_apply grammar inner state
    rw [if_neg full] at opened
    refine ⟨fun step member => ?_, fun value after trace reply => ?_⟩
    · rw [opened, Reply.trace_precededBy, Reply.trace_closed] at member
      rcases List.mem_cons.mp member with rfl | inside
      · trivial
      · exact onInner.known step inside
    · rw [opened] at reply
      cases replied : inner state.deeper with
      | failed diagnostic last steps =>
        rw [replied] at reply
        cases reply
      | parsed shownValue last steps =>
        rw [replied] at reply
        cases reply
        exact onInner.shows _ last steps replied

end Records

/-! ### Expressions -/

theorem number_records : Records table number [] Expr.operators state := by
  apply Records.of_silent (trace_number state)
  intro tree after yields
  obtain ⟨value, _, rfl, _⟩ := yields_number.mp yields
  rfl

/-- An operand that is extended shows its own operators before those of its extension. -/
theorem extended_records {power : Int} {first : Expr}
    (onInner : Records table (chain grammar (power + 1) first) first.operators Expr.operators state) :
    Records table (extended grammar power first) first.operators Expr.operators state := by
  apply Records.current_bind
  split
  · exact onInner
  · exact Records.pure rfl

/-- **The folds of the expression parsers** are the operators of their trees. A chain starts behind the
operators of the tree that it is given. -/
theorem parsers_record (grammar : Grammar) :
    (∀ state, Records grammar.table (expr grammar) [] Expr.operators state) ∧
    (∀ minimum left state, 0 ≤ minimum →
      Records grammar.table (chain grammar minimum left) left.operators Expr.operators state) ∧
    (∀ state, Records grammar.table (operand grammar) [] Expr.operators state) ∧
    (∀ state, Records grammar.table (groupRest grammar) [] Expr.operators state) ∧
    (∀ name state, Records grammar.table (referenceRest grammar name) [] Expr.operators state) ∧
    (∀ state, Records grammar.table (arguments grammar) [] Expr.operatorsAll state) := by
  refine expr_induction grammar ?opened ?number ?identifier ?openParen ?noOperand ?groupRest
    ?reference ?emptyCall ?call ?arguments ?stop ?fold
  case opened =>
    intro state onOperand onChain
    rw [expr_eq]
    exact .nested (onOperand.bind fun first middle yields =>
      onChain first middle yields (Int.le_refl 0))
  case number =>
    intro state kind
    rw [operand_eq]
    apply Records.current_bind
    simp only [kind]
    exact number_records
  case identifier =>
    intro state kind onReferenceRest
    rw [operand_eq]
    apply Records.current_bind
    simp only [kind]
    exact Records.advance_bind onReferenceRest
  case openParen =>
    intro state kind onGroupRest
    rw [operand_eq]
    apply Records.current_bind
    simp only [kind]
    exact Records.advance_bind onGroupRest
  case noOperand =>
    intro state noNumber noName noGroup
    rw [operand_eq]
    apply Records.current_bind
    have fails : Records grammar.table (failHere .noExpression) [] Expr.operators state := .failHere
    cases kind : state.current.kind <;> simp_all
  case groupRest =>
    intro state onExpr
    rw [groupRest_eq]
    exact onExpr.bind fun inner middle _ => .expect_bind fun _ => .pure rfl
  case reference =>
    intro name state noCall
    rw [referenceRest_eq]
    apply Records.current_bind
    rw [if_neg noCall]
    exact .pure rfl
  case emptyCall =>
    intro name state opens closes
    rw [referenceRest_eq]
    apply Records.current_bind
    rw [if_pos opens]
    apply Records.advance_bind
    apply Records.current_bind
    rw [if_pos closes]
    exact .advance_bind (.pure rfl)
  case call =>
    intro name state opens given onArguments
    rw [referenceRest_eq]
    apply Records.current_bind
    rw [if_pos opens]
    apply Records.advance_bind
    apply Records.current_bind
    rw [if_neg given]
    apply Records.wrap
    exact onArguments
  case arguments =>
    intro state onExpr onRest
    rw [arguments_eq]
    refine onExpr.bind fun first middle yields => .current_bind ?_
    by_cases closes : middle.current.kind = .closeParen
    · rw [if_pos closes]
      exact .advance_bind (.pure (List.append_nil first.operators))
    · rw [if_neg closes]
      by_cases goesOn : middle.current.kind = .comma
      · rw [if_pos goesOn]
        have others := (onRest first middle yields).behind first.operators
        rw [List.append_nil] at others
        apply Records.advance_bind
        apply Records.wrap
        exact others
      · rw [if_neg goesOn]
        exact .failHere
  case stop =>
    intro minimum left state loose _
    rw [chain_eq]
    apply Records.current_bind
    simp only [if_pos loose]
    exact .pure rfl
  case fold =>
    intro minimum left state tight onOperand onInner onRest valid
    obtain ⟨precedence, joins⟩ := Grammar.joins_of_bindingPower (Int.le_trans valid tight)
    rw [chain_eq]
    apply Records.current_bind
    simp only [if_neg (Int.not_lt.mpr tight)]
    apply Records.advance_bind
    -- The operators of the operand and of its extension stand behind those of the left side.
    have onFirst := onOperand.behind left.operators
    rw [List.append_nil] at onFirst
    refine onFirst.bind fun first middle yields => ?_
    have onExtended := extended_records (onInner first middle yields (by omega))
    refine (onExtended.behind left.operators).bind fun right last extension => ?_
    apply Records.record_bind ⟨precedence, joins.2, Grammar.bindingPower_of_joins joins⟩
    exact onRest first middle right last yields extension valid

theorem expr_records (grammar : Grammar) (state : ParseState) :
    Records grammar.table (expr grammar) [] Expr.operators state :=
  (parsers_record grammar).1 state

/-! ### Prototypes and items -/

/-- Parameters fold nothing. -/
theorem parameters_records (state : ParseState) :
    Records table parameters [] (fun _ => []) state := by
  induction tokens : state.remaining using Nat.strongRecOn generalizing state with
  | ind tokens ih =>
    subst tokens
    rw [parameters_eq]
    refine .expect_bind fun name => .current_bind ?_
    have more : 0 < state.remaining := ParseState.remaining_pos (by simp [name])
    split
    · exact .advance_bind (.pure rfl)
    · split
      · have fewer : state.advance.advance.remaining < state.remaining := by
          simp
          omega
        exact .advance_bind (.wrap (ih _ fewer _ rfl))
      · exact .failHere

/-- Prototypes fold nothing. -/
theorem prototype_records (state : ParseState) :
    Records table prototype [] (fun _ => []) state := by
  refine .expect_bind fun _ => .expect_bind fun _ => .current_bind ?_
  split
  · exact .advance_bind (.pure rfl)
  · exact .wrap (parameters_records _)

/-- **The folds of an item are the operators of its body.** -/
theorem item_records (grammar : Grammar) (state : ParseState) :
    Records grammar.table (item grammar) [] Item.operators state := by
  apply Records.current_bind
  cases state.current.kind with
  | defKeyword =>
    refine .wrap (.advance_bind ((prototype_records _).bind fun signature middle _ => ?_))
    exact .wrap (expr_records grammar middle)
  | externKeyword =>
    exact .wrap (.advance_bind (prototype_records _))
  | _ => exact .wrap (.wrap (expr_records grammar state))

end Parser

end OpLang
