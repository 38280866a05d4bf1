/-
**Expressions written as tokens, and read back.**

`Renders table phrase room tokens` says that some tokens write a phrase: a tree as an operand, as a
side of an operator, as a whole expression, or trees as the arguments of a call. A tree whose
operator binds too loosely for the side where it stands is written in parentheses, and every tree may
stand in more parentheses than it needs. No more than `room` expressions are open at once.

* `exists_renders`: every tree can be written whose numbers have a spelling and whose operators are
  in the table.
* `readBack_of_renders`: what writes a phrase is read back as that phrase, by induction over the
  writing. For the sides of operators a bracketing is carried along (`HoldsSide`): it is well bound,
  and none of its operators is looser than the side allows.
* For whole expressions this says that `expr` reads them back where nothing follows that would go on
  with them, neither an operator of the table nor an opening parenthesis.
-/

import OpLang.Proofs.Expr.Derivation
import OpLang.Proofs.Parser.Walk

namespace OpLang

/-! ### Writing expressions -/

/-- What is written: a tree in one of its roles, or the trees of a call. -/
inductive Phrase where
  | operand (tree : Expr)
  /-- A side of an operator, bare if its own operator has at least this precedence. -/
  | side (minimum : Nat) (tree : Expr)
  | expression (tree : Expr)
  /-- The arguments of a call, with the parenthesis that closes them. -/
  | arguments (trees : List Expr)

/-- Whether some tokens write a phrase, with at most `room` expressions open at once. -/
inductive Renders (table : PrecedenceTable) : Phrase → Nat → List Token → Prop where
  | number {room : Nat} {token : Token} {value : Binary64} (kind : token.kind = .number)
      (numeral : Numeral.read? token.value.toList = some value) :
      Renders table (.operand (.number value)) room [token]
  | reference {room : Nat} {name : Token} (kind : name.kind = .identifier) :
      Renders table (.operand (.reference name.value)) room [name]
  | call {room : Nat} {name opening : Token} {given : List Expr} {tokens : List Token}
      (kind : name.kind = .identifier) (opens : opening.kind = .openParen)
      (arguments : Renders table (.arguments given) room tokens) :
      Renders table (.operand (.call name.value given)) room (name :: opening :: tokens)
  | group {room : Nat} {opening closing : Token} {tree : Expr} {tokens : List Token}
      (opens : opening.kind = .openParen) (inner : Renders table (.expression tree) room tokens)
      (closes : closing.kind = .closeParen) :
      Renders table (.operand tree) room (opening :: (tokens ++ [closing]))
  | alone {room minimum : Nat} {tree : Expr} {tokens : List Token}
      (operand : Renders table (.operand tree) room tokens) :
      Renders table (.side minimum tree) room tokens
  | binary {room minimum : Nat} {operator : Token} {precedence : UInt16} {left right : Expr}
      {tokens others : List Token} (joins : table.Joins operator precedence)
      (enough : minimum ≤ precedence.toNat)
      (onLeft : Renders table (.side precedence.toNat left) room tokens)
      (onRight : Renders table (.side (precedence.toNat + 1) right) room others) :
      Renders table (.side minimum (.binary operator.value left right)) room
        (tokens ++ operator :: others)
  | expression {room : Nat} {tree : Expr} {tokens : List Token}
      (whole : Renders table (.side 0 tree) room tokens) :
      Renders table (.expression tree) (room + 1) tokens
  | noArguments {room : Nat} {closing : Token} (closes : closing.kind = .closeParen) :
      Renders table (.arguments []) room [closing]
  | lastArgument {room : Nat} {closing : Token} {tree : Expr} {tokens : List Token}
      (argument : Renders table (.expression tree) room tokens)
      (closes : closing.kind = .closeParen) :
      Renders table (.arguments [tree]) room (tokens ++ [closing])
  | argument {room : Nat} {comma : Token} {first second : Expr} {others : List Expr}
      {tokens more : List Token} (argument : Renders table (.expression first) room tokens)
      (goesOn : comma.kind = .comma)
      (arguments : Renders table (.arguments (second :: others)) room more) :
      Renders table (.arguments (first :: second :: others)) room (tokens ++ comma :: more)

theorem Renders.kind_ne_eof {table : PrecedenceTable} {phrase : Phrase} {room : Nat}
    {tokens : List Token} (renders : Renders table phrase room tokens) :
    ∀ token ∈ tokens, token.kind ≠ .eof := by
  induction renders with
  | number kind numeral => simp [kind]
  | reference kind => simp [kind]
  | call kind opens _ ih => simpa [kind, opens] using ih
  | group opens _ closes ih => simpa [opens, closes, or_imp, forall_and] using ih
  | alone _ ih => exact ih
  | binary joins _ _ _ ihLeft ihRight =>
    simpa [joins.1, or_imp, forall_and] using ⟨ihLeft, ihRight⟩
  | expression _ ih => exact ih
  | noArguments closes => simp [closes]
  | lastArgument _ closes ih => simpa [closes, or_imp, forall_and] using ih
  | argument _ goesOn _ ihFirst ihOthers =>
    simpa [goesOn, or_imp, forall_and] using ⟨ihFirst, ihOthers⟩

/-! ### What can be written -/

/-- What is written where `room` expressions may be open is written where more of them may be. -/
theorem Renders.mono {table : PrecedenceTable} {phrase : Phrase} {room more : Nat}
    {tokens : List Token} (renders : Renders table phrase room tokens) (enough : room ≤ more) :
    Renders table phrase more tokens := by
  induction renders generalizing more with
  | number kind numeral => exact .number kind numeral
  | reference kind => exact .reference kind
  | call kind opens _ ih => exact .call kind opens (ih enough)
  | group opens _ closes ih => exact .group opens (ih enough) closes
  | alone _ ih => exact .alone (ih enough)
  | binary joins tight _ _ ihLeft ihRight =>
    exact .binary joins tight (ihLeft enough) (ihRight enough)
  | expression _ ih =>
    cases more with
    | zero => exact absurd enough (Nat.not_succ_le_zero _)
    | succ more => exact .expression (ih (Nat.le_of_succ_le_succ enough))
  | noArguments closes => exact .noArguments closes
  | lastArgument _ closes ih => exact .lastArgument (ih enough) closes
  | argument _ goesOn _ ihFirst ihOthers => exact .argument (ihFirst enough) goesOn (ihOthers enough)

/-- Whether there is a token that contributes this to a tree: a number must have a spelling, and an
operator must be in the table. -/
def Mention.IsWritable (table : PrecedenceTable) : Mention → Prop
  | .number value => ∃ text : String, Numeral.read? text.toList = some value
  | .name _ => True
  | .operator text => ∃ precedence, table.get? text = some precedence

mutual

/-- **Every tree can be written,** if its numbers and operators can. -/
theorem exists_renders {table : PrecedenceTable} : (tree : Expr) →
    (∀ mention ∈ tree.mentions, mention.IsWritable table) →
    ∃ room tokens, Renders table (.operand tree) room tokens
  | .number value, writable => by
    obtain ⟨text, numeral⟩ := writable (.number value) List.mem_cons_self
    exact ⟨0, _, @Renders.number _ _ (.unplaced .number text) _ rfl numeral⟩
  | .reference name, _ => ⟨0, _, @Renders.reference _ _ (.unplaced .identifier name) rfl⟩
  | .binary operator left right, writable => by
    simp only [Expr.mentions, List.mem_append, List.mem_cons] at writable
    obtain ⟨precedence, entry⟩ := writable (.operator operator) (Or.inr (Or.inl rfl))
    obtain ⟨room, tokens, onLeft⟩ :=
      exists_renders left fun mention inside => writable mention (Or.inl inside)
    obtain ⟨room', tokens', onRight⟩ :=
      exists_renders right fun mention inside => writable mention (Or.inr (Or.inr inside))
    have joins : table.Joins (.unplaced .operator operator) precedence := ⟨rfl, entry⟩
    have sides : Renders table (.side 0 (.binary operator left right)) (max room room')
        (tokens ++ .unplaced .operator operator :: tokens') :=
      .binary joins (Nat.zero_le _) (.alone (onLeft.mono (Nat.le_max_left _ _)))
        (.alone (onRight.mono (Nat.le_max_right _ _)))
    exact ⟨_, _, @Renders.group _ _ (.unplaced .openParen "(") (.unplaced .closeParen ")") _ _ rfl
      (.expression sides) rfl⟩
  | .call callee given, writable => by
    simp only [Expr.mentions, List.mem_cons] at writable
    obtain ⟨room, tokens, arguments⟩ :=
      exists_rendersArguments given fun mention inside => writable mention (Or.inr inside)
    exact ⟨room, _, @Renders.call _ _ (.unplaced .identifier callee) (.unplaced .openParen "(") _ _
      rfl rfl arguments⟩

theorem exists_rendersArguments {table : PrecedenceTable} : (trees : List Expr) →
    (∀ mention ∈ Expr.mentionsAll trees, mention.IsWritable table) →
    ∃ room tokens, Renders table (.arguments trees) room tokens
  | [], _ => ⟨0, _, @Renders.noArguments _ _ (.unplaced .closeParen ")") rfl⟩
  | [tree], writable => by
    simp only [Expr.mentionsAll, List.append_nil] at writable
    obtain ⟨room, tokens, onTree⟩ := exists_renders tree writable
    exact ⟨room + 1, _, @Renders.lastArgument _ _ (.unplaced .closeParen ")") _ _
      (.expression (.alone onTree)) rfl⟩
  | first :: second :: others, writable => by
    rw [Expr.mentionsAll] at writable
    simp only [List.mem_append] at writable
    obtain ⟨room, tokens, onFirst⟩ :=
      exists_renders first fun mention inside => writable mention (Or.inl inside)
    obtain ⟨room', tokens', onOthers⟩ :=
      exists_rendersArguments (second :: others) fun mention inside =>
        writable mention (Or.inr inside)
    have argument : Renders table (.expression first) (max room room' + 1) tokens :=
      .expression (.alone (onFirst.mono (Nat.le_max_left _ _)))
    have further : room' ≤ max room room' + 1 := Nat.le_succ_of_le (Nat.le_max_right _ _)
    exact ⟨_, _, @Renders.argument _ _ (.unplaced .comma ",") _ _ _ _ _ argument rfl
      (onOthers.mono further)⟩

end

namespace Parser

variable {table : PrecedenceTable}

/-! ### What may follow -/

/-- Whether no parenthesis opens at the front of some tokens: a name before them is no call. -/
def NoCall (tokens : List Token) : Prop :=
  ∀ next ∈ tokens.head?, next.kind ≠ .openParen

theorem noCall_of_kind {token : Token} {rest : List Token} (kind : token.kind ≠ .openParen) :
    NoCall (token :: rest) := by
  intro next head
  obtain rfl := Option.some.inj head
  exact kind

/-! ### Reading back -/

theorem ReadsLinks.depth_eq {grammar : Grammar} {state after : ParseState} {links : List Link}
    (reads : ReadsLinks grammar state links after) : after.depth = state.depth := by
  induction reads with
  | done => rfl
  | @link state _ _ _ _ _ _ yields _ ih =>
    rw [ih, (operand_keepsDepth grammar state.advance).of_yields yields, ParseState.depth_advance]

/-- Whether a well-bound bracketing stands between two states, that of a tree none of whose operators
is looser than `minimum`. -/
structure HoldsSide (table : PrecedenceTable) (minimum : Nat) (tree : Expr) (state : ParseState)
    (bracketing : Bracketing) (middle after : ParseState) : Prop where
  operand : (operand (.ofTable table)).Yields state bracketing.first middle
  reads : ReadsLinks (.ofTable table) middle bracketing.links after
  wellBound : bracketing.WellBound
  expr_eq : bracketing.expr = tree
  tight : ∀ top ∈ bracketing.precedence?, minimum ≤ top

/-- An operator joins the bracketings of its sides. -/
theorem HoldsSide.join {minimum : Nat} {precedence : UInt16} {left right : Expr}
    {onLeft onRight : Bracketing} {state middle last middle' after : ParseState}
    (joins : table.Joins last.current precedence) (enough : minimum ≤ precedence.toNat)
    (holdsLeft : HoldsSide table precedence.toNat left state onLeft middle last)
    (holdsRight : HoldsSide table (precedence.toNat + 1) right last.advance onRight middle' after) :
    HoldsSide table minimum (.binary last.current.value left right) state
      (.join last.current.value precedence.toNat onLeft onRight) middle after := by
  refine ⟨holdsLeft.operand, ?_, ?_, ?_, ?_⟩
  · exact holdsLeft.reads.append (.link joins holdsRight.operand holdsRight.reads)
  · exact ⟨holdsLeft.wellBound, holdsRight.wellBound, holdsLeft.tight, holdsRight.tight⟩
  · rw [Bracketing.expr, holdsLeft.expr_eq, holdsRight.expr_eq]
  · intro top atTop
    obtain rfl := Option.some.inj atTop
    exact enough

/-- Whether tokens that write a phrase are read back as that phrase, up to whatever follows them. -/
def ReadBack (table : PrecedenceTable) (phrase : Phrase) (room : Nat) (tokens : List Token) :
    Prop :=
  ∀ (state : ParseState) (rest : List Token), state.upcoming = tokens ++ rest →
    state.depth + room ≤ 256 →
    match phrase with
    | .operand tree => NoCall rest →
      ∃ after, (operand (.ofTable table)).Yields state tree after ∧ after.upcoming = rest
    | .side minimum tree => NoCall rest →
      ∃ bracketing middle after, HoldsSide table minimum tree state bracketing middle after ∧
        after.upcoming = rest
    | .expression tree => NoCall rest → NoOperator table rest →
      ∃ after, (expr (.ofTable table)).Yields state tree after ∧ after.upcoming = rest
    | .arguments trees =>
      (trees = [] ∧ state.current.kind = .closeParen ∧ state.advance.upcoming = rest) ∨
      (trees ≠ [] ∧ state.current.kind ≠ .closeParen ∧
        ∃ after, (arguments (.ofTable table)).Yields state trees after ∧ after.upcoming = rest)

theorem readBack_call {room : Nat} {name opening : Token} {given : List Expr} {tokens : List Token}
    (kind : name.kind = .identifier) (opens : opening.kind = .openParen)
    (arguments : ReadBack table (.arguments given) room tokens) :
    ReadBack table (.operand (.call name.value given)) room (name :: opening :: tokens) := by
  intro state rest upcoming enough _
  obtain ⟨rfl, behind⟩ := ParseState.upcoming_advance upcoming (by simp [kind])
  obtain ⟨rfl, inside⟩ := ParseState.upcoming_advance behind (by simp [opens])
  rcases arguments state.advance.advance rest inside enough with
    ⟨rfl, closes, after⟩ | ⟨_, someGiven, last, yields, lastUpcoming⟩
  · exact ⟨_, yields_operand_of_emptyCall kind opens closes, after⟩
  · exact ⟨last, yields_operand_of_call kind opens someGiven yields, lastUpcoming⟩

theorem readBack_group {room : Nat} {opening closing : Token} {tree : Expr} {tokens : List Token}
    (opens : opening.kind = .openParen) (inner : ReadBack table (.expression tree) room tokens)
    (closes : closing.kind = .closeParen) :
    ReadBack table (.operand tree) room (opening :: (tokens ++ [closing])) := by
  intro state rest upcoming enough _
  rw [List.cons_append, List.append_assoc] at upcoming
  obtain ⟨rfl, inside⟩ := ParseState.upcoming_advance upcoming (by simp [opens])
  obtain ⟨last, yields, lastUpcoming⟩ := inner state.advance (closing :: rest) inside enough
    (noCall_of_kind (by simp [closes])) (noOperator_of_kind (by simp [closes]))
  obtain ⟨rfl, after⟩ := ParseState.upcoming_advance lastUpcoming (by simp [closes])
  exact ⟨_, yields_operand_of_group opens yields closes, after⟩

theorem readBack_alone {room minimum : Nat} {tree : Expr} {tokens : List Token}
    (operand : ReadBack table (.operand tree) room tokens) :
    ReadBack table (.side minimum tree) room tokens := by
  intro state rest upcoming enough noCall
  obtain ⟨after, yields, behind⟩ := operand state rest upcoming enough noCall
  exact ⟨.operand tree, after, after, ⟨yields, .done, trivial, rfl, nofun⟩, behind⟩

theorem readBack_binary {room minimum : Nat} {operator : Token} {precedence : UInt16}
    {left right : Expr} {tokens others : List Token} (joins : table.Joins operator precedence)
    (enough : minimum ≤ precedence.toNat)
    (onLeft : ReadBack table (.side precedence.toNat left) room tokens)
    (onRight : ReadBack table (.side (precedence.toNat + 1) right) room others) :
    ReadBack table (.side minimum (.binary operator.value left right)) room
      (tokens ++ operator :: others) := by
  intro state rest upcoming fits noCall
  rw [List.append_assoc, List.cons_append] at upcoming
  obtain ⟨bracketing, middle, last, holdsLeft, lastUpcoming⟩ :=
    onLeft state (operator :: (others ++ rest)) upcoming fits (noCall_of_kind (by simp [joins.1]))
  obtain ⟨rfl, behind⟩ := ParseState.upcoming_advance lastUpcoming (by simp [joins.1])
  have depth : last.advance.depth = state.depth :=
    holdsLeft.reads.depth_eq.trans ((operand_keepsDepth _ state).of_yields holdsLeft.operand)
  obtain ⟨bracketing', middle', after, holdsRight, afterUpcoming⟩ :=
    onRight last.advance rest behind (by omega) noCall
  exact ⟨_, middle, after, holdsLeft.join joins enough holdsRight, afterUpcoming⟩

theorem readBack_expression {room : Nat} {tree : Expr} {tokens : List Token}
    (whole : ReadBack table (.side 0 tree) room tokens) :
    ReadBack table (.expression tree) (room + 1) tokens := by
  intro state rest upcoming enough noCall noOperator
  obtain ⟨bracketing, middle, last, holds, lastUpcoming⟩ :=
    whole state.deeper rest upcoming (by rw [ParseState.depth_deeper]; omega) noCall
  subst lastUpcoming
  have climbs : Climbs (.ofTable table) 0 bracketing.first middle bracketing last :=
    { reads := holds.reads
      first := rfl
      wellBound := holds.wellBound
      tight := fun link _ => Int.natCast_nonneg link.precedence
      stops := Grammar.bindingPower_neg_iff.mpr (noOperator last.current last.head?_upcoming) }
  have chain : (chain (.ofTable table) 0 bracketing.first).Yields middle tree last :=
    (yields_chain_iff_climbs (Int.le_refl 0)).mpr ⟨bracketing, climbs, holds.expr_eq⟩
  have notFull : (Grammar.ofTable table).isFull state.depth = false :=
    isFull_ofTable_eq_false.mpr (by omega)
  exact ⟨last.shallower,
    yields_expr.mpr ⟨notFull, bracketing.first, middle, last, holds.operand, chain, rfl⟩, rfl⟩

theorem readBack_lastArgument {room : Nat} {closing : Token} {tree : Expr} {tokens : List Token}
    (argument : ReadBack table (.expression tree) room tokens)
    (closes : closing.kind = .closeParen) :
    ReadBack table (.arguments [tree]) room (tokens ++ [closing]) := by
  intro state rest upcoming enough
  rw [List.append_assoc] at upcoming
  obtain ⟨last, yields, lastUpcoming⟩ := argument state (closing :: rest) upcoming enough
    (noCall_of_kind (by simp [closes])) (noOperator_of_kind (by simp [closes]))
  obtain ⟨rfl, after⟩ := ParseState.upcoming_advance lastUpcoming (by simp [closes])
  refine Or.inr ⟨List.cons_ne_nil _ _, kind_ne_closeParen_of_yields yields, last.advance, ?_, after⟩
  exact yields_arguments.mpr ⟨tree, last, yields, Or.inl ⟨closes, rfl, rfl⟩⟩

theorem readBack_argument {room : Nat} {comma : Token} {first second : Expr} {others : List Expr}
    {tokens more : List Token} (argument : ReadBack table (.expression first) room tokens)
    (goesOn : comma.kind = .comma)
    (arguments : ReadBack table (.arguments (second :: others)) room more) :
    ReadBack table (.arguments (first :: second :: others)) room (tokens ++ comma :: more) := by
  intro state rest upcoming enough
  rw [List.append_assoc, List.cons_append] at upcoming
  obtain ⟨middle, yields, middleUpcoming⟩ := argument state (comma :: (more ++ rest)) upcoming enough
    (noCall_of_kind (by simp [goesOn])) (noOperator_of_kind (by simp [goesOn]))
  obtain ⟨rfl, behind⟩ := ParseState.upcoming_advance middleUpcoming (by simp [goesOn])
  have depth : middle.depth = state.depth := (expr_keepsDepth _ state).of_yields yields
  rcases arguments middle.advance rest behind (by rw [ParseState.depth_advance]; omega) with
    ⟨none, _⟩ | ⟨_, _, last, further, lastUpcoming⟩
  · cases none
  · refine Or.inr ⟨List.cons_ne_nil _ _, kind_ne_closeParen_of_yields yields, last, ?_, lastUpcoming⟩
    exact yields_arguments.mpr
      ⟨first, middle, yields, Or.inr ⟨goesOn, second :: others, further, rfl⟩⟩

/-- **What writes a phrase is read back as that phrase.** -/
theorem readBack_of_renders {phrase : Phrase} {room : Nat} {tokens : List Token}
    (renders : Renders table phrase room tokens) : ReadBack table phrase room tokens := by
  induction renders with
  | number kind numeral =>
    intro state rest upcoming _ _
    obtain ⟨rfl, behind⟩ := ParseState.upcoming_advance upcoming (by simp [kind])
    exact ⟨_, yields_operand_of_number kind numeral, behind⟩
  | reference kind =>
    intro state rest upcoming _ noCall
    obtain ⟨rfl, behind⟩ := ParseState.upcoming_advance upcoming (by simp [kind])
    subst behind
    exact ⟨_, yields_operand_of_reference kind (noCall _ state.advance.head?_upcoming), rfl⟩
  | call kind opens _ ih => exact readBack_call kind opens ih
  | group opens _ closes ih => exact readBack_group opens ih closes
  | alone _ ih => exact readBack_alone ih
  | binary joins enough _ _ ihLeft ihRight => exact readBack_binary joins enough ihLeft ihRight
  | expression _ ih => exact readBack_expression ih
  | noArguments closes =>
    intro state rest upcoming _
    obtain ⟨rfl, behind⟩ := ParseState.upcoming_advance upcoming (by simp [closes])
    exact Or.inl ⟨rfl, closes, behind⟩
  | lastArgument _ closes ih => exact readBack_lastArgument ih closes
  | argument _ goesOn _ ihFirst ihOthers => exact readBack_argument ihFirst goesOn ihOthers

end Parser

end OpLang
