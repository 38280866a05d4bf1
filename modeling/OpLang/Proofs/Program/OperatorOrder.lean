/-
**Only the order of precedences matters.**

Two tables order some operators alike if they have the same ones of them and, of any two, the same one
binds tighter (`PrecedenceTable.OrdersAlike`). What the precedences are makes no difference to a parser:
it compares the binding powers of two operators of the tokens with each other, or one with zero, and its
thresholds lie right above such operators. So runs with two tables that order the operators of the tokens
alike keep in step (`Simulation.sameOrder`), and have the same outcome (`sameOutcome_of_ordersAlike`).

* `OrdersAlike.renumbered`: a table orders all operators as it does with its precedences renumbered, if
  that keeps the greater ones greater.
* `OrdersAlike.insertAll`: it orders those operators as before to which no entry is added.
* `spells_of_mem_operators`: an operator among the tokens of a source is one punctuation character.
-/

import OpLang.Proofs.PrecedenceTable.Entries
import OpLang.Proofs.Token.Tiling
import OpLang.Proofs.Program.Simulation

namespace OpLang

/-! ### Tables that order operators alike -/

namespace PrecedenceTable

/-- **Whether two tables order some operators alike:** both have the same ones of these, and of two that
they have, the first binds no tighter than the second in both tables or in neither. -/
structure OrdersAlike (operators : List String) (table table' : PrecedenceTable) : Prop where
  isSome_eq : ∀ operator ∈ operators,
    (table'.get? operator).isSome = (table.get? operator).isSome
  le_iff : ∀ operator ∈ operators, ∀ other ∈ operators,
    ∀ {precedence precedence' bound bound' : UInt16},
      table.get? operator = some precedence → table.get? other = some bound →
      table'.get? operator = some precedence' → table'.get? other = some bound' →
      (precedence ≤ bound ↔ precedence' ≤ bound')

variable {operators : List String} {table table' : PrecedenceTable}

/-- Tables that have the same entries for some operators order these alike. -/
theorem OrdersAlike.of_get?_eq
    (same : ∀ operator ∈ operators, table'.get? operator = table.get? operator) :
    OrdersAlike operators table table' where
  isSome_eq operator member := congrArg Option.isSome (same operator member)
  le_iff := by
    intro operator member other member' precedence precedence' bound bound' known known' after after'
    rw [same operator member, known] at after
    rw [same other member', known'] at after'
    obtain rfl := Option.some.inj after
    obtain rfl := Option.some.inj after'
    rfl

/-- The table with every precedence renumbered. -/
def renumbered (renumber : UInt16 → UInt16) (table : PrecedenceTable) : PrecedenceTable :=
  ⟨table.entries.map fun entry => (entry.1, renumber entry.2), by
    rw [List.map_map]
    exact table.distinct⟩

@[simp]
theorem get?_renumbered (renumber : UInt16 → UInt16) (table : PrecedenceTable) (operator : String) :
    (table.renumbered renumber).get? operator = (table.get? operator).map renumber := by
  show (table.entries.map _).lookup operator = (table.entries.lookup operator).map renumber
  induction table.entries with
  | nil => rfl
  | cons entry others ih =>
    rw [List.map_cons, lookup_cons, lookup_cons, ih]
    by_cases same : operator = entry.1
    · rw [if_pos same, if_pos same, Option.map_some]
    · rw [if_neg same, if_neg same]

/-- Whether a renumbering keeps the greater ones of a table's precedences greater. -/
def KeepsOrder (table : PrecedenceTable) (renumber : UInt16 → UInt16) : Prop :=
  ∀ {operator other : String} {precedence bound : UInt16},
    table.get? operator = some precedence → table.get? other = some bound →
    precedence < bound → renumber precedence < renumber bound

/-- Renumbering in order keeps the order of all operators. -/
theorem OrdersAlike.renumbered {renumber : UInt16 → UInt16} (keeps : table.KeepsOrder renumber) :
    OrdersAlike operators table (table.renumbered renumber) where
  isSome_eq operator _ := by rw [get?_renumbered, Option.isSome_map]
  le_iff := by
    intro operator _ other _ precedence precedence' bound bound' known known' after after'
    rw [get?_renumbered, known] at after
    rw [get?_renumbered, known'] at after'
    obtain rfl := Option.some.inj after
    obtain rfl := Option.some.inj after'
    rcases Nat.lt_trichotomy precedence.toNat bound.toNat with less | equal | greater
    · have less : precedence < bound := UInt16.lt_iff_toNat_lt.mpr less
      exact iff_of_true (UInt16.le_of_lt less) (UInt16.le_of_lt (keeps known known' less))
    · rw [UInt16.toNat_inj.mp equal]
      exact iff_of_true (UInt16.le_refl _) (UInt16.le_refl _)
    · have greater : bound < precedence := UInt16.lt_iff_toNat_lt.mpr greater
      exact iff_of_false (UInt16.not_le.mpr greater)
        (UInt16.not_le.mpr (keeps known' known greater))

/-- Entries for other operators keep the order. -/
theorem OrdersAlike.insertAll {additions : List (String × UInt16)}
    (apart : ∀ entry ∈ additions, entry.1 ∉ operators) :
    OrdersAlike operators table (table.insertAll additions) := by
  refine .of_get?_eq fun operator member => get?_insertAll_of_not_mem fun added => ?_
  obtain ⟨entry, inside, rfl⟩ := List.mem_map.mp added
  exact apart entry inside member

end PrecedenceTable

/-! ### Operators of tokens -/

/-- The values of the operator tokens among some tokens. -/
def Token.operators (tokens : List Token) : List String :=
  (tokens.filter fun token => token.kind == .operator).map Token.value

theorem Token.mem_operators {tokens : List Token} {operator : String} :
    operator ∈ Token.operators tokens ↔
      ∃ token ∈ tokens, token.kind = .operator ∧ token.value = operator := by
  simp [Token.operators, and_assoc]

/-- **An operator among the tokens of a source** is spelled as operators are. -/
theorem spells_of_mem_operators {source : Source} {tokens : List Token}
    (lexed : Token.tokenize source = .ok tokens) {operator : String}
    (member : operator ∈ Token.operators tokens) :
    Token.Kind.operator.Spells operator.toList := by
  obtain ⟨token, inside, kind, rfl⟩ := Token.mem_operators.mp member
  have spells := (tiles_of_tokenize lexed).spells token inside (by simp [kind])
  rw [kind] at spells
  exact spells

/-! ### Binding powers -/

/-- Whether a token, if it is an operator, is one of the given ones. -/
def Token.IsAmong (operators : List String) (token : Token) : Prop :=
  token.kind = .operator → token.value ∈ operators

namespace PrecedenceTable.OrdersAlike

variable {operators : List String} {table table' : PrecedenceTable} {token other : Token}

/-- The same tokens are operators of both tables. -/
theorem joins_iff (alike : OrdersAlike operators table table') (among : token.IsAmong operators) :
    (∃ precedence, table.Joins token precedence) ↔ ∃ precedence, table'.Joins token precedence := by
  simp only [Joins, exists_and_left, ← Option.isSome_iff_exists]
  refine and_congr_right fun kind => ?_
  rw [alike.isSome_eq _ (among kind)]

/-- The same tokens are no operators of either table. -/
theorem loose_iff (alike : OrdersAlike operators table table') (among : token.IsAmong operators) :
    (Grammar.ofTable table).bindingPower token < 0 ↔
      (Grammar.ofTable table').bindingPower token < 0 := by
  rw [Grammar.bindingPower_neg_iff, Grammar.bindingPower_neg_iff, ← not_exists, ← not_exists]
  exact not_congr (alike.joins_iff among)

/-- **The same one of two tokens binds tighter** with both tables. -/
theorem looser_iff (alike : OrdersAlike operators table table') (among : token.IsAmong operators)
    (among' : other.IsAmong operators) :
    (Grammar.ofTable table).bindingPower token < (Grammar.ofTable table).bindingPower other ↔
      (Grammar.ofTable table').bindingPower token <
        (Grammar.ofTable table').bindingPower other := by
  have loose := alike.loose_iff among
  have loose' := alike.loose_iff among'
  rcases Grammar.joins_or_not (.ofTable table) token with ⟨precedence, joins, power⟩ | ⟨_, power⟩
  · rcases Grammar.joins_or_not (.ofTable table) other with ⟨bound, joins', power'⟩ | ⟨_, power'⟩
    · obtain ⟨precedence', after⟩ := (alike.joins_iff among).mp ⟨precedence, joins⟩
      obtain ⟨bound', after'⟩ := (alike.joins_iff among').mp ⟨bound, joins'⟩
      have ordered := alike.le_iff _ (among' joins'.1) _ (among joins.1) joins'.2 joins.2 after'.2
        after.2
      rw [UInt16.le_iff_toNat_le, UInt16.le_iff_toNat_le] at ordered
      rw [power, power', Grammar.bindingPower_of_joins after, Grammar.bindingPower_of_joins after']
      omega
    · -- The second token is no operator of either table, and the first one is.
      omega
  · -- The first token is no operator of either table, so any operator binds tighter.
    have power' : (Grammar.ofTable table').bindingPower token = -1 := by
      rcases Grammar.joins_or_not (.ofTable table') token with ⟨precedence', _, after⟩ | ⟨_, after⟩
      · omega
      · exact after
    omega

end PrecedenceTable.OrdersAlike

/-! ### Runs -/

/-- **The simulation of a run with one table** by the run with another one that orders the operators to
come alike: both are always in the same state. -/
def Simulation.sameOrder {operators : List String} {table table' : PrecedenceTable}
    (ordered : table.OrdersAlike operators table') :
    Simulation (.ofTable table) (.ofTable table') where
  rename := id
  alike token token' := token' = token ∧ token.IsAmong operators
  meets state state' := state' = state ∧ ∀ token ∈ state.upcoming, token.IsAmong operators
  kind_eq_or_ends := by
    rintro token token' ⟨rfl, _⟩
    exact Or.inl rfl
  name_eq := fun ⟨same, _⟩ _ => congrArg Token.value same
  number_eq := fun ⟨same, _⟩ _ => congrArg Token.value same
  operator_eq := fun ⟨same, _⟩ _ => congrArg Token.value same
  loose_iff := by
    rintro token token' ⟨rfl, among⟩
    exact ordered.loose_iff among
  looser_iff := by
    rintro token token' other other' ⟨rfl, among⟩ ⟨rfl, among'⟩
    exact ordered.looser_iff among among'
  isFull_eq := by
    rintro state state' ⟨rfl, _⟩
    rfl
  current := by
    rintro state state' ⟨rfl, among⟩
    exact ⟨rfl, among _ state'.current_mem_upcoming⟩
  advance := by
    rintro state state' ⟨rfl, among⟩ _
    exact ⟨rfl, fun token member => among token (state'.mem_of_mem_advance member)⟩
  deeper := by
    rintro state state' ⟨rfl, among⟩
    exact ⟨rfl, among⟩
  shallower := by
    rintro state state' ⟨rfl, among⟩
    exact ⟨rfl, among⟩

namespace Run

/-- Whether two runs complete and announce the same items, report the same diagnostics and come to the
same end. -/
structure SameOutcome (run run' : Run) : Prop where
  items : run'.items = run.items
  diagnostics : run'.diagnostics = run.diagnostics
  announced : run'.announced = run.announced
  final : run'.final = run.final

theorem sameOutcome_of_ordersAlike {tokens : List Token} {table table' : PrecedenceTable}
    (ordered : table.OrdersAlike (Token.operators tokens) table') :
    SameOutcome (Run.ofTokens (.ofTable table) tokens) (Run.ofTokens (.ofTable table') tokens) := by
  have strict : (Simulation.sameOrder ordered).IsStrict := by
    refine ⟨fun ⟨same, _⟩ => congrArg Token.kind same, ?_⟩
    rintro state state' ⟨rfl, among⟩
    exact ⟨rfl, fun token member => among token (state'.mem_of_mem_advance member)⟩
  have meets : (Simulation.sameOrder ordered).meets (.ofTokens tokens) (.ofTokens tokens) := by
    refine ⟨rfl, fun token member kind => ?_⟩
    rcases ParseState.upcoming_ofTokens tokens with ⟨_, _, _, _, same⟩ | ⟨_, last, ended, same⟩
    · rw [same] at member
      exact Token.mem_operators.mpr ⟨token, member, kind, rfl⟩
    · rw [same, List.mem_append, List.mem_singleton] at member
      rcases member with inside | rfl
      · exact Token.mem_operators.mpr ⟨token, inside, kind, rfl⟩
      · exact absurd (kind.symm.trans ended) (by decide)
  obtain ⟨items, diagnostics⟩ := Simulation.runs_agree strict rfl (fun ⟨same, _⟩ => same) meets
  refine ⟨items, diagnostics, ?_, (Simulation.runs_mirror strict meets).2.2.1⟩
  rw [announced_eq_events, announced_eq_events, events, events]
  exact congrArg (List.map Item.event) items

/-- **Only the order of precedences matters.** Runs with two tables that order the operators of the tokens
alike have the same outcome. So it makes no difference if the precedences of a table are renumbered in
order, or if entries are added for what is no operator among the tokens; for the tokens of a source, that
is whatever is not spelled as one punctuation character without a kind of its own. -/
theorem ofTokens_sameOutcome (tokens : List Token) :
    (∀ table table' : PrecedenceTable, table.OrdersAlike (Token.operators tokens) table' →
      SameOutcome (Run.ofTokens (.ofTable table) tokens)
        (Run.ofTokens (.ofTable table') tokens)) ∧
    (∀ (table : PrecedenceTable) (renumber : UInt16 → UInt16), table.KeepsOrder renumber →
      SameOutcome (Run.ofTokens (.ofTable table) tokens)
        (Run.ofTokens (.ofTable (table.renumbered renumber)) tokens)) ∧
    (∀ (table : PrecedenceTable) (additions : List (String × UInt16)),
      (∀ entry ∈ additions, entry.1 ∉ Token.operators tokens) →
      SameOutcome (Run.ofTokens (.ofTable table) tokens)
        (Run.ofTokens (.ofTable (table.insertAll additions)) tokens)) ∧
    (∀ (source : Source) (table : PrecedenceTable) (additions : List (String × UInt16)),
      Token.tokenize source = .ok tokens →
      (∀ entry ∈ additions, ¬ Token.Kind.operator.Spells entry.1.toList) →
      SameOutcome (Run.ofTokens (.ofTable table) tokens)
        (Run.ofTokens (.ofTable (table.insertAll additions)) tokens)) := by
  refine ⟨fun table table' ordered => sameOutcome_of_ordersAlike ordered, ?_, ?_, ?_⟩
  · exact fun table renumber keeps => sameOutcome_of_ordersAlike (.renumbered keeps)
  · exact fun table additions apart => sameOutcome_of_ordersAlike (.insertAll apart)
  · intro source table additions lexed apart
    refine sameOutcome_of_ordersAlike (.insertAll fun entry member inside => ?_)
    exact apart entry member (spells_of_mem_operators lexed inside)

/-- A sum of a product. -/
def sumOfProduct : Source := ⟨"a+b*c", "sum.k"⟩

/-- A table with a gap between the precedences of its two operators and room below them. -/
def gappedTable : PrecedenceTable := .ofList [("+", 1), ("*", 3)]

theorem get?_gappedTable (operator : String) :
    gappedTable.get? operator =
      if operator = "*" then some 3 else if operator = "+" then some 1 else none := by
  simp [gappedTable, PrecedenceTable.ofList]

/-- Of its two operators, the looser one is moved to the least precedence and the tighter one to the
greatest; and entries are added in the gap, for an operator that does not occur and for texts that are
none. -/
theorem ofTokens_sameOutcome_sumOfProduct :
    ∃ tokens, Token.tokenize sumOfProduct = .ok tokens ∧
      SameOutcome (Run.ofTokens (.ofTable gappedTable) tokens)
        (Run.ofTokens (.ofTable (.ofList [("*", 65535), ("-", 9), ("+", 0)])) tokens) ∧
      SameOutcome (Run.ofTokens (.ofTable gappedTable) tokens)
        (Run.ofTokens (.ofTable (gappedTable.renumbered fun precedence =>
          if precedence = 1 then 0 else 65535)) tokens) ∧
      SameOutcome (Run.ofTokens (.ofTable gappedTable) tokens)
        (Run.ofTokens (.ofTable (gappedTable.insertAll [("-", 2), ("a", 2)])) tokens) ∧
      SameOutcome (Run.ofTokens (.ofTable gappedTable) tokens)
        (Run.ofTokens (.ofTable (gappedTable.insertAll [("**", 2), ("(", 2), ("a", 2)])) tokens) := by
  have pieces : Lexeme.pieces sumOfProduct.text.toList =
      ([⟨.word, ['a']⟩, ⟨.operator, ['+']⟩, ⟨.word, ['b']⟩, ⟨.operator, ['*']⟩, ⟨.word, ['c']⟩],
        []) := by cbv
  have lexed := tokenize_of_pieces pieces
  obtain ⟨alike, renumbered, added, addedToSource⟩ := ofTokens_sameOutcome _
  refine ⟨_, lexed, alike _ _ ⟨by decide, ?_⟩, renumbered _ _ ?_, added _ _ (by decide),
    addedToSource _ _ _ lexed ?_⟩
  · intro operator _ other _ precedence precedence' bound bound' known known' after after'
    simp only [get?_gappedTable] at known known'
    simp only [PrecedenceTable.ofList, List.foldl_cons, List.foldl_nil, PrecedenceTable.get?_insert,
      PrecedenceTable.get?_empty] at after after'
    grind
  · intro operator other precedence bound known known' less
    simp only [get?_gappedTable] at known known'
    grind
  · intro entry member spells
    simp only [List.mem_cons, List.not_mem_nil, or_false] at member
    rcases member with rfl | rfl | rfl
    · cases spells
    · cases spells with
      | operator _ other => exact other (by decide)
    · cases spells with
      | operator punctuation _ => exact absurd punctuation (by decide)

end Run

end OpLang
