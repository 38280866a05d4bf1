/-
**The grammar of expressions, and what an expression mentions.**

`Derives table part room tokens rest` is the grammar of expressions with operators of a table: a
part of an expression stands at the front of `tokens`, `rest` follows it, and at most `room`
expressions are open in it at once. It says nothing of precedences and trees.

Against it stands the parser `expr`, which yields a tree or fails.

* `parsers_accountedFor`: where a parser yields, the cursor has moved over tokens that the grammar
  derives, and the tree mentions the numbers, names and operators among them in their order. This
  follows the recursion of the parsers (`expr_induction`).
* `accepted_of_derives`: where the grammar derives tokens that no operator of the table follows,
  `expr` yields. This follows the derivation; chains are left to `exists_yields_of_reads`.
* `expr_yields_iff_derives`: so `expr` accepts exactly what the grammar derives.
-/

import OpLang.Proofs.Expr.Chain

namespace OpLang

/-! ### The grammar -/

/-- The parts of expressions. -/
inductive Nonterminal where
  | expression
  | operand
  /-- Operators, each with an operand after it. -/
  | links
  /-- One argument of a call or more, and the parenthesis that closes them. -/
  | arguments

/-- Whether a part of an expression stands at the front of some tokens, before a rest, with room for
a number of expressions open at once. -/
inductive Derives (table : PrecedenceTable) :
    Nonterminal → Nat → List Token → List Token → Prop where
  | expression {room : Nat} {tokens middle rest : List Token}
      (operand : Derives table .operand room tokens middle)
      (links : Derives table .links room middle rest) :
      Derives table .expression (room + 1) tokens rest
  | noLink {room : Nat} {rest : List Token} : Derives table .links room rest rest
  | link {room : Nat} {operator : Token} {precedence : UInt16} {tokens middle rest : List Token}
      (joins : table.Joins operator precedence)
      (operand : Derives table .operand room tokens middle)
      (links : Derives table .links room middle rest) :
      Derives table .links room (operator :: tokens) rest
  | number {room : Nat} {token : Token} {rest : List Token} (kind : token.kind = .number)
      (numeral : (Numeral.read? token.value.toList).isSome) :
      Derives table .operand room (token :: rest) rest
  | reference {room : Nat} {name : Token} {rest : List Token} (kind : name.kind = .identifier)
      (noCall : ∀ next ∈ rest.head?, next.kind ≠ .openParen) :
      Derives table .operand room (name :: rest) rest
  | emptyCall {room : Nat} {name opening closing : Token} {rest : List Token}
      (kind : name.kind = .identifier) (opens : opening.kind = .openParen)
      (closes : closing.kind = .closeParen) :
      Derives table .operand room (name :: opening :: closing :: rest) rest
  | call {room : Nat} {name opening : Token} {tokens rest : List Token}
      (kind : name.kind = .identifier) (opens : opening.kind = .openParen)
      (arguments : Derives table .arguments room tokens rest) :
      Derives table .operand room (name :: opening :: tokens) rest
  | group {room : Nat} {opening closing : Token} {tokens rest : List Token}
      (opens : opening.kind = .openParen)
      (inner : Derives table .expression room tokens (closing :: rest))
      (closes : closing.kind = .closeParen) :
      Derives table .operand room (opening :: tokens) rest
  | lastArgument {room : Nat} {closing : Token} {tokens rest : List Token}
      (argument : Derives table .expression room tokens (closing :: rest))
      (closes : closing.kind = .closeParen) :
      Derives table .arguments room tokens rest
  | argument {room : Nat} {comma : Token} {tokens middle rest : List Token}
      (argument : Derives table .expression room tokens (comma :: middle))
      (goesOn : comma.kind = .comma)
      (arguments : Derives table .arguments room middle rest) :
      Derives table .arguments room tokens rest

/-- Links and links after them are links. -/
theorem Derives.append_links {table : PrecedenceTable} {room : Nat}
    {tokens middle rest : List Token} (first : Derives table .links room tokens middle)
    (second : Derives table .links room middle rest) : Derives table .links room tokens rest := by
  generalize part : Nonterminal.links = kind at first
  induction first with
  | noLink => exact second
  | link joins operand _ _ ih => exact .link joins operand (ih second part)
  | _ => cases part

/-- An expression opens one itself. -/
theorem Derives.room_pos {table : PrecedenceTable} {room : Nat} {tokens rest : List Token}
    (derives : Derives table .expression room tokens rest) : 0 < room := by
  cases derives with
  | expression => exact Nat.succ_pos _

/-! ### Mentions -/

/-- What a tree and the tokens that it was parsed from have in common. -/
inductive Mention where
  | number (value : Binary64)
  | name (text : String)
  | operator (text : String)

/-- What a token contributes to a tree; punctuation contributes nothing. -/
def Token.mention? (token : Token) : Option Mention :=
  match token.kind with
  | .number => (Numeral.read? token.value.toList).map .number
  | .identifier => some (.name token.value)
  | .operator => some (.operator token.value)
  | _ => none

namespace Expr

mutual

/-- The numbers, names and operators of a tree from left to right. -/
def mentions : Expr → List Mention
  | .number value => [.number value]
  | .reference name => [.name name]
  | .binary operator left right => left.mentions ++ .operator operator :: right.mentions
  | .call callee arguments => .name callee :: mentionsAll arguments

/-- The numbers, names and operators of several trees from left to right. -/
def mentionsAll : List Expr → List Mention
  | [] => []
  | first :: others => first.mentions ++ mentionsAll others

end

end Expr

namespace Parser

variable {table : PrecedenceTable}

/-! ### What is yielded is derived -/

/-- Whether the cursor moves from one state to another over tokens with the given mentions. -/
def Mentions (state : ParseState) (mentions : List Mention) (after : ParseState) : Prop :=
  ∃ taken, state.Takes taken after ∧ mentions = taken.filterMap Token.mention?

namespace Mentions

variable {state middle after : ParseState} {mentions others : List Mention}

theorem nothing : Mentions state [] state := ⟨[], .nothing, rfl⟩

/-- The move over one token. -/
theorem token (more : state.current.kind ≠ .eof) :
    Mentions state state.current.mention?.toList state.advance := by
  refine ⟨[state.current], .current more, ?_⟩
  cases mention : state.current.mention? <;> simp [mention]

/-- The move over a token that contributes nothing. -/
theorem silent (more : state.current.kind ≠ .eof) (nothing : state.current.mention? = none) :
    Mentions state [] state.advance := by
  have moved := token more
  rw [nothing] at moved
  exact moved

theorem append (first : Mentions state mentions middle) (second : Mentions middle others after) :
    Mentions state (mentions ++ others) after := by
  obtain ⟨taken, takes, rfl⟩ := first
  obtain ⟨taken', takes', rfl⟩ := second
  exact ⟨taken ++ taken', takes.trans takes', by rw [List.filterMap_append]⟩

theorem depth_eq (moved : Mentions state mentions after) : after.depth = state.depth := by
  obtain ⟨taken, takes, _⟩ := moved
  exact takes.depth_eq

theorem shallower (moved : Mentions state.deeper mentions after) :
    Mentions state mentions after.shallower := by
  obtain ⟨taken, takes, mentioned⟩ := moved
  exact ⟨taken, takes.shallower, mentioned⟩

end Mentions

/-- The room for expressions that is left at a state. -/
def room (state : ParseState) : Nat := 256 - state.depth

/-- The grammar with the usual limit is full from depth 256 on. -/
theorem isFull_ofTable_eq_false {depth : Nat} :
    (Grammar.ofTable table).isFull depth = false ↔ depth < 256 := by
  simp [Grammar.isFull, Grammar.ofTable]

theorem room_of_lt {state : ParseState} (notFull : state.depth < 256) :
    room state = room state.deeper + 1 := by
  unfold room
  rw [ParseState.depth_deeper]
  omega

theorem Mentions.room_eq {state after : ParseState} {mentions : List Mention}
    (moved : Mentions state mentions after) : room after = room state :=
  congrArg (256 - ·) moved.depth_eq

/-- Whether a part of an expression with the given mentions stands between two states. -/
structure Accounts (table : PrecedenceTable) (part : Nonterminal) (state : ParseState)
    (mentions : List Mention) (after : ParseState) : Prop where
  moved : Mentions state mentions after
  derives : Derives table part (room state) state.upcoming after.upcoming

/-- Whether a parser yields, from a state, only what the grammar derives. -/
def AccountedFor {α : Type} (table : PrecedenceTable) (part : Nonterminal) (parser : Parser α)
    (mentions : α → List Mention) (state : ParseState) : Prop :=
  ∀ value after, parser.Yields state value after →
    Accounts table part state (mentions value) after

/-- The same of a parser of operands that starts behind the first token, of the given kind and
mentions. -/
def RestAccountedFor (table : PrecedenceTable) (parser : Parser Expr) (kind : Token.Kind)
    (mentions : List Mention) (state : ParseState) : Prop :=
  ∀ tree after, parser.Yields state tree after →
    ∃ others, tree.mentions = mentions ++ others ∧ Mentions state others after ∧
      ∀ token : Token, token.kind = kind →
        Derives table .operand (room state) (token :: state.upcoming) after.upcoming

/-- The same of a parser that continues what was parsed before. -/
def LinksAccountedFor (table : PrecedenceTable) (parser : Parser Expr) (left : Expr)
    (state : ParseState) : Prop :=
  ∀ tree after, parser.Yields state tree after →
    ∃ others, tree.mentions = left.mentions ++ others ∧ Accounts table .links state others after

variable {state : ParseState}

theorem expr_accountedFor
    (onOperand : AccountedFor table .operand (operand (.ofTable table)) Expr.mentions state.deeper)
    (onChain : ∀ first middle, (operand (.ofTable table)).Yields state.deeper first middle →
      LinksAccountedFor table (chain (.ofTable table) 0 first) first middle) :
    AccountedFor table .expression (expr (.ofTable table)) Expr.mentions state := by
  intro tree after yields
  obtain ⟨notFull, first, middle, last, operand, chain, rfl⟩ := yields_expr.mp yields
  obtain ⟨movedFirst, derivesFirst⟩ := onOperand first middle operand
  obtain ⟨others, mentions, movedOthers, derivesOthers⟩ :=
    onChain first middle operand tree last chain
  rw [movedFirst.room_eq] at derivesOthers
  refine ⟨mentions ▸ (movedFirst.append movedOthers).shallower, ?_⟩
  rw [room_of_lt (isFull_ofTable_eq_false.mp notFull)]
  exact .expression derivesFirst derivesOthers

theorem operand_accountedFor_of_number (kind : state.current.kind = .number) :
    AccountedFor table .operand (operand (.ofTable table)) Expr.mentions state := by
  intro tree after yields
  have more : state.current.kind ≠ .eof := by simp [kind]
  have number : number.Yields state tree after := by
    simpa [kind] using yields_operand.mp yields
  obtain ⟨value, numeral, rfl, rfl⟩ := yields_number.mp number
  have moved := Mentions.token more
  rw [show state.current.mention? = some (.number value) by
    simp [Token.mention?, kind, numeral]] at moved
  refine ⟨moved, ?_⟩
  rw [ParseState.upcoming_of_ne_eof more]
  exact .number kind (by rw [numeral]; rfl)

/-- An operand is accounted for if its parts behind the first token are. -/
theorem operand_accountedFor_of_rest (rest : Parser Expr) {kind : Token.Kind}
    (first : state.current.kind = kind) (inner : kind ≠ .eof)
    (onRest : RestAccountedFor table rest kind state.current.mention?.toList state.advance)
    (only : ∀ tree after, (operand (.ofTable table)).Yields state tree after →
      rest.Yields state.advance tree after) :
    AccountedFor table .operand (operand (.ofTable table)) Expr.mentions state := by
  intro tree after yields
  have more : state.current.kind ≠ .eof := by rw [first]; exact inner
  obtain ⟨others, mentions, moved, derives⟩ := onRest tree after (only tree after yields)
  refine ⟨mentions ▸ (Mentions.token more).append moved, ?_⟩
  rw [ParseState.upcoming_of_ne_eof more]
  exact derives state.current first

theorem groupRest_accountedFor
    (onExpr : AccountedFor table .expression (expr (.ofTable table)) Expr.mentions state) :
    RestAccountedFor table (groupRest (.ofTable table)) .openParen [] state := by
  intro tree after yields
  obtain ⟨last, inner, closes, rfl⟩ := yields_groupRest.mp yields
  obtain ⟨moved, derives⟩ := onExpr tree last inner
  have more : last.current.kind ≠ .eof := by simp [closes]
  have closing := Mentions.silent more (by simp [Token.mention?, closes])
  refine ⟨tree.mentions, rfl, List.append_nil tree.mentions ▸ moved.append closing, ?_⟩
  intro opening opens
  rw [ParseState.upcoming_of_ne_eof more] at derives
  exact .group opens derives closes

theorem referenceRest_accountedFor_of_reference {name : String}
    (noCall : state.current.kind ≠ .openParen) :
    RestAccountedFor table (referenceRest (.ofTable table) name) .identifier [.name name]
      state := by
  intro tree after yields
  obtain ⟨rfl, rfl⟩ : tree = .reference name ∧ after = state := by
    simpa [noCall] using yields_referenceRest.mp yields
  refine ⟨[], rfl, .nothing, fun token kind => .reference kind ?_⟩
  intro next head
  rw [ParseState.head?_upcoming] at head
  obtain rfl := Option.some.inj head
  exact noCall

theorem referenceRest_accountedFor_of_emptyCall {name : String}
    (opens : state.current.kind = .openParen) (closes : state.advance.current.kind = .closeParen) :
    RestAccountedFor table (referenceRest (.ofTable table) name) .identifier [.name name]
      state := by
  intro tree after yields
  obtain ⟨rfl, rfl⟩ : tree = .call name [] ∧ after = state.advance.advance := by
    simpa [opens, closes] using yields_referenceRest.mp yields
  have more : state.current.kind ≠ .eof := by simp [opens]
  have moreInside : state.advance.current.kind ≠ .eof := by simp [closes]
  have opening := Mentions.silent more (by simp [Token.mention?, opens])
  have closing := Mentions.silent moreInside (by simp [Token.mention?, closes])
  refine ⟨[], rfl, opening.append closing, fun token kind => ?_⟩
  rw [ParseState.upcoming_of_ne_eof more, ParseState.upcoming_of_ne_eof moreInside]
  exact .emptyCall kind opens closes

theorem referenceRest_accountedFor_of_call {name : String}
    (opens : state.current.kind = .openParen) (given : state.advance.current.kind ≠ .closeParen)
    (onArguments : AccountedFor table .arguments (arguments (.ofTable table)) Expr.mentionsAll
      state.advance) :
    RestAccountedFor table (referenceRest (.ofTable table) name) .identifier [.name name]
      state := by
  intro tree after yields
  obtain ⟨others, arguments, rfl⟩ :
      ∃ others, (arguments (.ofTable table)).Yields state.advance others after ∧
        tree = .call name others := by
    simpa [opens, given] using yields_referenceRest.mp yields
  have more : state.current.kind ≠ .eof := by simp [opens]
  have opening := Mentions.silent more (by simp [Token.mention?, opens])
  obtain ⟨moved, derives⟩ := onArguments others after arguments
  refine ⟨Expr.mentionsAll others, rfl, opening.append moved, fun token kind => ?_⟩
  rw [ParseState.upcoming_of_ne_eof more]
  exact .call kind opens derives

theorem arguments_accountedFor
    (onExpr : AccountedFor table .expression (expr (.ofTable table)) Expr.mentions state)
    (onRest : ∀ first middle, (expr (.ofTable table)).Yields state first middle →
      AccountedFor table .arguments (arguments (.ofTable table)) Expr.mentionsAll
        middle.advance) :
    AccountedFor table .arguments (arguments (.ofTable table)) Expr.mentionsAll state := by
  intro given after yields
  obtain ⟨first, middle, argument, rest⟩ := yields_arguments.mp yields
  obtain ⟨moved, derives⟩ := onExpr first middle argument
  rcases rest with ⟨closes, rfl, rfl⟩ | ⟨goesOn, others, arguments, rfl⟩
  · have more : middle.current.kind ≠ .eof := by simp [closes]
    have closing := Mentions.silent more (by simp [Token.mention?, closes])
    refine ⟨moved.append closing, ?_⟩
    rw [ParseState.upcoming_of_ne_eof more] at derives
    exact .lastArgument derives closes
  · have more : middle.current.kind ≠ .eof := by simp [goesOn]
    have comma := Mentions.silent more (by simp [Token.mention?, goesOn])
    obtain ⟨movedOthers, derivesOthers⟩ := onRest first middle argument others after arguments
    refine ⟨moved.append (comma.append movedOthers), ?_⟩
    rw [ParseState.upcoming_of_ne_eof more] at derives
    rw [comma.room_eq, moved.room_eq] at derivesOthers
    exact .argument derives goesOn derivesOthers

theorem chain_accountedFor_of_stop {minimum : Int} {left : Expr}
    (loose : (Grammar.ofTable table).bindingPower state.current < minimum) :
    LinksAccountedFor table (chain (.ofTable table) minimum left) left state := by
  intro tree after yields
  rcases yields_chain.mp yields with ⟨_, rfl, rfl⟩ | ⟨tight, _⟩
  · exact ⟨[], (List.append_nil _).symm, .nothing, .noLink⟩
  · omega

theorem chain_accountedFor_of_fold {minimum : Int} {left : Expr} (valid : 0 ≤ minimum)
    (tight : minimum ≤ (Grammar.ofTable table).bindingPower state.current)
    (onOperand : AccountedFor table .operand (operand (.ofTable table)) Expr.mentions state.advance)
    (onInner : ∀ first middle, (operand (.ofTable table)).Yields state.advance first middle →
      LinksAccountedFor table
        (chain (.ofTable table) ((Grammar.ofTable table).bindingPower state.current + 1) first)
        first middle)
    (onRest : ∀ first middle right last,
      (operand (.ofTable table)).Yields state.advance first middle →
      (extended (.ofTable table) ((Grammar.ofTable table).bindingPower state.current)
        first).Yields middle right last →
      LinksAccountedFor table
        (chain (.ofTable table) minimum (.binary state.current.value left right))
        (.binary state.current.value left right) last) :
    LinksAccountedFor table (chain (.ofTable table) minimum left) left state := by
  intro tree after yields
  rcases yields_chain.mp yields with
    ⟨loose, _⟩ | ⟨_, first, middle, right, last, operand, extension, more⟩
  · omega
  obtain ⟨precedence, joins⟩ := Grammar.joins_of_bindingPower (Int.le_trans valid tight)
  have notEnd : state.current.kind ≠ .eof := by simp [joins.1]
  have operator := Mentions.token notEnd
  rw [show state.current.mention? = some (.operator state.current.value) by
    simp [Token.mention?, joins.1]] at operator
  obtain ⟨movedFirst, derivesFirst⟩ := onOperand first middle operand
  have extended : ∃ others, right.mentions = first.mentions ++ others ∧
      Accounts table .links middle others last := by
    rcases yields_extended.mp extension with ⟨_, chain⟩ | ⟨_, rfl, rfl⟩
    · exact onInner first middle operand right last chain
    · exact ⟨[], (List.append_nil _).symm, .nothing, .noLink⟩
  obtain ⟨inner, mentionsRight, movedInner, derivesInner⟩ := extended
  obtain ⟨rest, mentions, movedRest, derivesRest⟩ :=
    onRest first middle right last operand extension tree after more
  rw [operator.room_eq] at derivesFirst
  rw [movedFirst.room_eq, operator.room_eq] at derivesInner
  rw [movedInner.room_eq, movedFirst.room_eq, operator.room_eq] at derivesRest
  refine ⟨[.operator state.current.value] ++ (first.mentions ++ (inner ++ rest)), ?_,
    operator.append (movedFirst.append (movedInner.append movedRest)), ?_⟩
  · rw [mentions, Expr.mentions, mentionsRight]
    simp
  · rw [ParseState.upcoming_of_ne_eof notEnd]
    exact .link joins derivesFirst (derivesInner.append_links derivesRest)

/-- **What the expression parsers yield is derived by the grammar,** and mentions the tokens taken. -/
theorem parsers_accountedFor (table : PrecedenceTable) :
    (∀ state, AccountedFor table .expression (expr (.ofTable table)) Expr.mentions state) ∧
    (∀ (minimum : Int) (left : Expr) (state : ParseState), 0 ≤ minimum →
      LinksAccountedFor table (chain (.ofTable table) minimum left) left state) ∧
    (∀ state, AccountedFor table .operand (operand (.ofTable table)) Expr.mentions state) ∧
    (∀ state, RestAccountedFor table (groupRest (.ofTable table)) .openParen [] state) ∧
    (∀ name state, RestAccountedFor table (referenceRest (.ofTable table) name) .identifier
      [.name name] state) ∧
    (∀ state, AccountedFor table .arguments (arguments (.ofTable table)) Expr.mentionsAll state) := by
  refine expr_induction (.ofTable table) ?opened ?number ?identifier ?openParen ?noOperand
    ?groupRest ?reference ?emptyCall ?call ?arguments ?stop ?fold
  case opened =>
    intro state onOperand onChain
    exact expr_accountedFor onOperand fun first middle yields =>
      onChain first middle yields (Int.le_refl 0)
  case number => exact fun state kind => operand_accountedFor_of_number kind
  case identifier =>
    intro state kind onReferenceRest
    refine operand_accountedFor_of_rest (referenceRest (.ofTable table) state.current.value)
      kind (by decide) ?_ fun tree after yields => ?_
    · simpa [Token.mention?, kind] using onReferenceRest
    · simpa [kind] using yields_operand.mp yields
  case openParen =>
    intro state kind onGroupRest
    refine operand_accountedFor_of_rest (groupRest (.ofTable table)) kind (by decide) ?_
      fun tree after yields => ?_
    · simpa [Token.mention?, kind] using onGroupRest
    · simpa [kind] using yields_operand.mp yields
  case noOperand =>
    intro state noNumber noName noGroup tree after yields
    simp [noNumber, noName, noGroup, yields_operand] at yields
  case groupRest => exact fun state onExpr => groupRest_accountedFor onExpr
  case reference => exact fun name state noCall => referenceRest_accountedFor_of_reference noCall
  case emptyCall =>
    exact fun name state opens closes => referenceRest_accountedFor_of_emptyCall opens closes
  case call =>
    exact fun name state opens given onArguments =>
      referenceRest_accountedFor_of_call opens given onArguments
  case arguments => exact fun state onExpr onRest => arguments_accountedFor onExpr onRest
  case stop => exact fun minimum left state loose valid => chain_accountedFor_of_stop loose
  case fold =>
    intro minimum left state tight onOperand onInner onRest valid
    refine chain_accountedFor_of_fold valid tight onOperand ?_ ?_
    · exact fun first middle yields => onInner first middle yields (by omega)
    · exact fun first middle right last yields extension =>
        onRest first middle right last yields extension valid

theorem expr_accounts (state : ParseState) :
    AccountedFor table .expression (expr (.ofTable table)) Expr.mentions state :=
  (parsers_accountedFor table).1 state

theorem operand_accounts (state : ParseState) :
    AccountedFor table .operand (operand (.ofTable table)) Expr.mentions state :=
  (parsers_accountedFor table).2.2.1 state

/-! ### What is derived is accepted -/

/-- Whether no operator of the table comes first among some tokens. -/
def NoOperator (table : PrecedenceTable) (tokens : List Token) : Prop :=
  ∀ next ∈ tokens.head?, ∀ precedence, ¬ table.Joins next precedence

theorem noOperator_of_kind {token : Token} {rest : List Token} (kind : token.kind ≠ .operator) :
    NoOperator table (token :: rest) := by
  intro next head precedence joins
  obtain rfl := Option.some.inj head
  exact kind joins.1

/-- Whether the parser of a part of expressions accepts tokens up to a rest, wherever it has room.
Links are read; only the parser of expressions looks at what follows. -/
def Accepted (table : PrecedenceTable) (part : Nonterminal) (room : Nat)
    (tokens rest : List Token) : Prop :=
  ∀ state : ParseState, state.upcoming = tokens → state.depth + room ≤ 256 →
    match part with
    | .expression => NoOperator table rest →
      ∃ tree after, (expr (.ofTable table)).Yields state tree after ∧ after.upcoming = rest
    | .operand =>
      ∃ tree after, (operand (.ofTable table)).Yields state tree after ∧ after.upcoming = rest
    | .links =>
      ∃ links after, ReadsLinks (.ofTable table) state links after ∧ after.upcoming = rest
    | .arguments => state.current.kind ≠ .closeParen ∧
      ∃ given after, (arguments (.ofTable table)).Yields state given after ∧
        after.upcoming = rest

/-- No expression begins with a closing parenthesis. -/
theorem kind_ne_closeParen_of_yields {grammar : Grammar} {state after : ParseState} {tree : Expr}
    (yields : (expr grammar).Yields state tree after) : state.current.kind ≠ .closeParen := by
  rcases kind_of_yields_expr yields with kind | kind | kind <;> simp [kind]

/-- **What the grammar derives is accepted.** -/
theorem accepted_of_derives {part : Nonterminal} {room : Nat} {tokens rest : List Token}
    (derives : Derives table part room tokens rest) : Accepted table part room tokens rest := by
  induction derives with
  | expression _ _ ihOperand ihLinks =>
    intro state upcoming enough noOperator
    obtain ⟨first, middle, operand, middleUpcoming⟩ :=
      ihOperand state.deeper upcoming (by rw [ParseState.depth_deeper]; omega)
    have depth := (operand_accounts state.deeper first middle operand).moved.depth_eq
    rw [ParseState.depth_deeper] at depth
    obtain ⟨links, last, reads, rfl⟩ := ihLinks middle middleUpcoming (by omega)
    have stops : (Grammar.ofTable table).bindingPower last.current < 0 :=
      Grammar.bindingPower_neg_iff.mpr (noOperator last.current last.head?_upcoming)
    obtain ⟨tree, chain⟩ := exists_yields_of_reads (Int.le_refl 0) reads
      (fun link _ => Int.natCast_nonneg link.precedence) stops first
    have notFull : (Grammar.ofTable table).isFull state.depth = false :=
      isFull_ofTable_eq_false.mpr (by omega)
    exact ⟨tree, last.shallower,
      yields_expr.mpr ⟨notFull, first, middle, last, operand, chain, rfl⟩, rfl⟩
  | noLink => exact fun state upcoming _ => ⟨[], state, .done, upcoming⟩
  | @link room operator precedence tokens middle rest joins _ _ ihOperand ihLinks =>
    intro state upcoming enough
    obtain ⟨rfl, behind⟩ := ParseState.upcoming_advance upcoming (by simp [joins.1])
    obtain ⟨first, middle, operand, middleUpcoming⟩ := ihOperand state.advance behind enough
    have depth := (operand_accounts state.advance first middle operand).moved.depth_eq
    rw [ParseState.depth_advance] at depth
    obtain ⟨links, last, reads, lastUpcoming⟩ := ihLinks middle middleUpcoming (by omega)
    exact ⟨_, last, .link joins operand reads, lastUpcoming⟩
  | number kind numeral =>
    intro state upcoming _
    obtain ⟨rfl, behind⟩ := ParseState.upcoming_advance upcoming (by simp [kind])
    obtain ⟨value, read⟩ := Option.isSome_iff_exists.mp numeral
    exact ⟨_, _, yields_operand_of_number kind read, behind⟩
  | reference kind noCall =>
    intro state upcoming _
    obtain ⟨rfl, behind⟩ := ParseState.upcoming_advance upcoming (by simp [kind])
    rw [← behind] at noCall
    have noCall := noCall state.advance.current state.advance.head?_upcoming
    exact ⟨_, _, yields_operand_of_reference kind noCall, behind⟩
  | emptyCall kind opens closes =>
    intro state upcoming _
    obtain ⟨rfl, behind⟩ := ParseState.upcoming_advance upcoming (by simp [kind])
    obtain ⟨rfl, inside⟩ := ParseState.upcoming_advance behind (by simp [opens])
    obtain ⟨rfl, after⟩ := ParseState.upcoming_advance inside (by simp [closes])
    exact ⟨_, _, yields_operand_of_emptyCall kind opens closes, after⟩
  | call kind opens _ ihArguments =>
    intro state upcoming enough
    obtain ⟨rfl, behind⟩ := ParseState.upcoming_advance upcoming (by simp [kind])
    obtain ⟨rfl, inside⟩ := ParseState.upcoming_advance behind (by simp [opens])
    obtain ⟨someGiven, given, last, arguments, lastUpcoming⟩ :=
      ihArguments state.advance.advance inside enough
    exact ⟨_, last, yields_operand_of_call kind opens someGiven arguments, lastUpcoming⟩
  | group opens _ closes ihInner =>
    intro state upcoming enough
    obtain ⟨rfl, inside⟩ := ParseState.upcoming_advance upcoming (by simp [opens])
    obtain ⟨inner, last, expr, lastUpcoming⟩ :=
      ihInner state.advance inside enough (noOperator_of_kind (by simp [closes]))
    obtain ⟨rfl, after⟩ := ParseState.upcoming_advance lastUpcoming (by simp [closes])
    exact ⟨_, _, yields_operand_of_group opens expr closes, after⟩
  | lastArgument _ closes ihArgument =>
    intro state upcoming enough
    obtain ⟨first, last, expr, lastUpcoming⟩ :=
      ihArgument state upcoming enough (noOperator_of_kind (by simp [closes]))
    obtain ⟨rfl, after⟩ := ParseState.upcoming_advance lastUpcoming (by simp [closes])
    exact ⟨kind_ne_closeParen_of_yields expr, _, _,
      yields_arguments.mpr ⟨first, last, expr, Or.inl ⟨closes, rfl, rfl⟩⟩, after⟩
  | argument _ goesOn _ ihArgument ihArguments =>
    intro state upcoming enough
    obtain ⟨first, middle, expr, middleUpcoming⟩ :=
      ihArgument state upcoming enough (noOperator_of_kind (by simp [goesOn]))
    obtain ⟨rfl, behind⟩ := ParseState.upcoming_advance middleUpcoming (by simp [goesOn])
    have depth := (expr_accounts state first middle expr).moved.depth_eq
    obtain ⟨_, others, last, arguments, lastUpcoming⟩ :=
      ihArguments middle.advance behind (by rw [ParseState.depth_advance]; omega)
    exact ⟨kind_ne_closeParen_of_yields expr, _, last,
      yields_arguments.mpr ⟨first, middle, expr, Or.inr ⟨goesOn, others, arguments, rfl⟩⟩,
      lastUpcoming⟩

/-! ### Acceptance -/

/-- Whether an expression stands between two states, and cannot be longer. -/
structure HoldsExpression (table : PrecedenceTable) (state after : ParseState) : Prop where
  moved : ∃ taken, state.Takes taken after
  derives : Derives table .expression (256 - state.depth) state.upcoming after.upcoming
  longest : ∀ precedence, ¬ table.Joins after.current precedence

/-- **`expr` accepts exactly the grammar of expressions.** It yields, and stops after some tokens,
exactly if these tokens are derived, with what room is left at its depth, and no operator of the
table follows them; there is at most one place where this is so; and the tree mentions the numbers,
names and operators that were taken, each once and in their order. -/
theorem expr_yields_iff_derives (table : PrecedenceTable) :
    (∀ state after, (∃ tree, (expr (.ofTable table)).Yields state tree after) ↔
      HoldsExpression table state after) ∧
    (∀ state after after', HoldsExpression table state after →
      HoldsExpression table state after' → after = after') ∧
    (∀ state tree after taken, (expr (.ofTable table)).Yields state tree after →
      state.Takes taken after → tree.mentions = taken.filterMap Token.mention?) := by
  have accepts : ∀ state after, (∃ tree, (expr (.ofTable table)).Yields state tree after) ↔
      HoldsExpression table state after := by
    intro state after
    constructor
    · rintro ⟨tree, yields⟩
      obtain ⟨⟨taken, takes, _⟩, derives⟩ := expr_accounts state tree after yields
      refine ⟨⟨taken, takes⟩, derives, ?_⟩
      obtain ⟨_, first, middle, last, _, chain, rfl⟩ := yields_expr.mp yields
      obtain ⟨bracketing, climbs, _⟩ := exists_climbs_of_yields (Int.le_refl 0) chain
      exact Grammar.bindingPower_neg_iff.mp climbs.stops
    · rintro ⟨⟨taken, takes⟩, derives, longest⟩
      have notFull := derives.room_pos
      have noOperator : NoOperator table after.upcoming := by
        intro next head
        rw [ParseState.head?_upcoming] at head
        obtain rfl := Option.some.inj head
        exact longest
      obtain ⟨tree, after', yields, same⟩ :=
        accepted_of_derives derives state rfl (by omega) noOperator
      obtain ⟨⟨taken', takes', _⟩, _⟩ := expr_accounts state tree after' yields
      obtain ⟨_, rfl⟩ := takes.unique_of_upcoming_eq takes' same.symm
      exact ⟨tree, yields⟩
  refine ⟨accepts, ?_, ?_⟩
  · intro state after after' holds holds'
    obtain ⟨tree, yields⟩ := (accepts state after).mpr holds
    obtain ⟨tree', yields'⟩ := (accepts state after').mpr holds'
    exact (yields.unique yields').2
  · intro state tree after taken yields takes
    obtain ⟨⟨taken', takes', mentions⟩, _⟩ := expr_accounts state tree after yields
    obtain ⟨rfl, _⟩ := takes.unique_of_upcoming_eq takes' rfl
    exact mentions

/-- The tokens of `f(x, 1) * y`. -/
def productOfCall : List Token :=
  [.unplaced .identifier "f", .unplaced .openParen "(", .unplaced .identifier "x",
    .unplaced .comma ",", .unplaced .number "1", .unplaced .closeParen ")",
    .unplaced .operator "*", .unplaced .identifier "y"]

/-- `f(x, 1) * y` is an expression up to its end and up to nowhere else, and its tree mentions `f`,
`x`, one, `*` and `y`. -/
theorem expr_yields_iff_derives_productOfCall :
    let table := PrecedenceTable.standard
    let state := ParseState.ofTokens productOfCall
    let after : ParseState := ⟨⟨8, [], .atEnd .unknown, rfl⟩, 0⟩
    HoldsExpression table state after ∧
      (∀ after', HoldsExpression table state after' → after' = after) ∧
      ∃ tree, (expr (.ofTable table)).Yields state tree after ∧
        tree.mentions = [.name "f", .name "x", .number (.ofDecimal false 1 0), .operator "*",
          .name "y"] := by
  intro table state after
  have takes : state.Takes productOfCall after :=
    .token (by decide) (.token (by decide) (.token (by decide) (.token (by decide)
      (.token (by decide) (.token (by decide) (.token (by decide) (.token (by decide)
        .nothing)))))))
  have arguments : Derives table .arguments 255 (productOfCall.drop 2 ++ after.upcoming)
      (productOfCall.drop 6 ++ after.upcoming) :=
    .argument (.expression (.reference rfl (by decide)) .noLink) rfl
      (.lastArgument (.expression (.number rfl rfl) .noLink) rfl)
  have factor : Derives table .links 255 (productOfCall.drop 6 ++ after.upcoming)
      after.upcoming :=
    .link ⟨rfl, rfl⟩ (.reference rfl (by decide)) .noLink
  have holds : HoldsExpression table state after :=
    ⟨⟨_, takes⟩, .expression (.call rfl rfl arguments) factor,
      fun precedence joins => absurd joins.1 (by decide)⟩
  obtain ⟨accepts, unique, mentions⟩ := expr_yields_iff_derives table
  obtain ⟨tree, yields⟩ := (accepts state after).mpr holds
  refine ⟨holds, fun after' holds' => unique state after' after holds' holds, tree, yields, ?_⟩
  rw [mentions state tree after productOfCall yields takes]
  rfl

end Parser

end OpLang
