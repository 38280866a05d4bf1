/-
**What was taken before a failure can be completed.**

`Forms table part room tokens` says that some tokens are a part of an expression before whatever
follows them, as long as no parenthesis opens there (a name before a parenthesis is a call).
`Completable` says that more tokens behind them make them one. A part that can be completed makes the
part around it one that can: an operand alone is an expression, and a closing parenthesis ends a group
or the arguments of a call.

* `Derives.exists_forms`: what the grammar derives before one rest forms the same part before others.
* `parsers_failCompletably`: where an expression parser fails at a token that is out of place there,
  the tokens that it took can be completed. By induction over the parsers: what was parsed before the
  part that fails forms parts, and that part can be completed itself. The limit of nesting leaves room
  for it, for where an operand is due a number is one, which opens nothing.
-/

import OpLang.Proofs.Expr.Fails
import OpLang.Proofs.Expr.Rendering

namespace OpLang

/-- Whether the token that a cause quotes is out of place where it stands. To be nested too deeply is not
to be out of place. -/
def Cause.IsMisplacement : Cause → Prop
  | .noExpression _ => True
  | .notDue complaint _ => complaint ≠ Parser.tooDeep
  | _ => False

open OpLang.Parser (NoCall noCall_of_kind)

variable {table : PrecedenceTable} {part : Nonterminal}

section

variable {room : Nat}

theorem Parser.NoCall.append {tokens rest : List Token} (first : NoCall tokens)
    (behind : NoCall rest) : NoCall (tokens ++ rest) := by
  cases tokens with
  | nil => exact behind
  | cons token others => exact noCall_of_kind (first token rfl)

/-! ### Tokens that form a part -/

/-- Whether some tokens are a part of an expression, whatever follows them and opens no call. -/
def Forms (table : PrecedenceTable) (part : Nonterminal) (room : Nat) (tokens : List Token) : Prop :=
  ∀ rest, NoCall rest → Derives table part room (tokens ++ rest) rest

namespace Forms

variable {tokens others : List Token}

theorem noLink : Forms table .links room [] := fun _ _ => .noLink

theorem expression (operand : Forms table .operand room tokens)
    (links : Forms table .links room others) (apart : NoCall others) :
    Forms table .expression (room + 1) (tokens ++ others) := by
  intro rest noCall
  rw [List.append_assoc]
  exact .expression (operand _ (apart.append noCall)) (links rest noCall)

/-- An operand alone is an expression. -/
theorem alone (operand : Forms table .operand room tokens) :
    Forms table .expression (room + 1) tokens :=
  List.append_nil tokens ▸ operand.expression noLink nofun

theorem link {operator : Token} {precedence : UInt16} (joins : table.Joins operator precedence)
    (operand : Forms table .operand room tokens) (links : Forms table .links room others)
    (apart : NoCall others) : Forms table .links room (operator :: (tokens ++ others)) := by
  intro rest noCall
  rw [List.cons_append, List.append_assoc]
  exact .link joins (operand _ (apart.append noCall)) (links rest noCall)

theorem append_links (first : Forms table .links room tokens)
    (second : Forms table .links room others) (apart : NoCall others) :
    Forms table .links room (tokens ++ others) := by
  intro rest noCall
  rw [List.append_assoc]
  exact (first _ (apart.append noCall)).append_links (second rest noCall)

theorem number {token : Token} (kind : token.kind = .number)
    (numeral : (Numeral.read? token.value.toList).isSome) : Forms table .operand room [token] :=
  fun _ _ => .number kind numeral

theorem reference {name : Token} (kind : name.kind = .identifier) :
    Forms table .operand room [name] :=
  fun _ noCall => .reference kind noCall

theorem emptyCall {name opening closing : Token} (kind : name.kind = .identifier)
    (opens : opening.kind = .openParen) (closes : closing.kind = .closeParen) :
    Forms table .operand room [name, opening, closing] :=
  fun _ _ => .emptyCall kind opens closes

theorem call {name opening : Token} (kind : name.kind = .identifier)
    (opens : opening.kind = .openParen) (arguments : Forms table .arguments room tokens) :
    Forms table .operand room (name :: opening :: tokens) :=
  fun rest noCall => .call kind opens (arguments rest noCall)

theorem group {opening closing : Token} (opens : opening.kind = .openParen)
    (inner : Forms table .expression room tokens) (closes : closing.kind = .closeParen) :
    Forms table .operand room (opening :: (tokens ++ [closing])) := by
  intro rest _
  rw [List.cons_append, List.append_assoc]
  exact .group opens (inner (closing :: rest) (noCall_of_kind (by simp [closes]))) closes

theorem lastArgument {closing : Token} (argument : Forms table .expression room tokens)
    (closes : closing.kind = .closeParen) : Forms table .arguments room (tokens ++ [closing]) := by
  intro rest _
  rw [List.append_assoc]
  exact .lastArgument (argument (closing :: rest) (noCall_of_kind (by simp [closes]))) closes

theorem argument {comma : Token} (argument : Forms table .expression room tokens)
    (goesOn : comma.kind = .comma) (arguments : Forms table .arguments room others) :
    Forms table .arguments room (tokens ++ comma :: others) := by
  intro rest noCall
  rw [List.append_assoc]
  exact .argument (argument (comma :: (others ++ rest)) (noCall_of_kind (by simp [goesOn]))) goesOn
    (arguments rest noCall)

end Forms

/-- Whether some tokens stand before a rest and form a part, none of them an end; before links a name is
no call. -/
structure FormsBefore (table : PrecedenceTable) (part : Nonterminal) (room : Nat)
    (tokens rest taken : List Token) : Prop where
  tokens_eq : tokens = taken ++ rest
  forms : Forms table part room taken
  inner : ∀ token ∈ taken, token.kind ≠ .eof
  apart : part = .links → NoCall taken

/-- **What is derived before one rest** forms a part before others, and contains no end. -/
theorem Derives.exists_forms {tokens rest : List Token}
    (derives : Derives table part room tokens rest) :
    ∃ taken, FormsBefore table part room tokens rest taken := by
  induction derives with
  | expression _ _ ihOperand ihLinks =>
    obtain ⟨taken, rfl, operand, inner, _⟩ := ihOperand
    obtain ⟨others, rfl, links, inner', apart⟩ := ihLinks
    refine ⟨taken ++ others, by simp, operand.expression links (apart rfl), ?_, nofun⟩
    simpa [or_imp, forall_and] using ⟨inner, inner'⟩
  | noLink => exact ⟨[], rfl, .noLink, nofun, fun _ => nofun⟩
  | @link _ operator _ _ _ _ joins _ _ ihOperand ihLinks =>
    obtain ⟨taken, rfl, operand, inner, _⟩ := ihOperand
    obtain ⟨others, rfl, links, inner', apart⟩ := ihLinks
    refine ⟨operator :: (taken ++ others), by simp, .link joins operand links (apart rfl), ?_,
      fun _ => noCall_of_kind (by simp [joins.1])⟩
    simpa [or_imp, forall_and, joins.1] using ⟨inner, inner'⟩
  | @number _ token _ kind numeral =>
    exact ⟨[token], rfl, .number kind numeral, by simp [kind], nofun⟩
  | @reference _ name _ kind _ => exact ⟨[name], rfl, .reference kind, by simp [kind], nofun⟩
  | @emptyCall _ name opening closing _ kind opens closes =>
    exact ⟨[name, opening, closing], rfl, .emptyCall kind opens closes,
      by simp [kind, opens, closes], nofun⟩
  | @call _ name opening _ _ kind opens _ ihArguments =>
    obtain ⟨taken, rfl, arguments, inner, _⟩ := ihArguments
    refine ⟨name :: opening :: taken, rfl, .call kind opens arguments, ?_, nofun⟩
    simpa [kind, opens] using inner
  | @group _ opening closing _ _ opens _ closes ihInner =>
    obtain ⟨taken, rfl, expression, inner, _⟩ := ihInner
    refine ⟨opening :: (taken ++ [closing]), by simp, .group opens expression closes, ?_, nofun⟩
    simpa [or_imp, forall_and, opens, closes] using inner
  | @lastArgument _ closing _ _ _ closes ihArgument =>
    obtain ⟨taken, rfl, expression, inner, _⟩ := ihArgument
    refine ⟨taken ++ [closing], by simp, .lastArgument expression closes, ?_, nofun⟩
    simpa [or_imp, forall_and, closes] using inner
  | @argument _ comma _ _ _ _ goesOn _ ihArgument ihArguments =>
    obtain ⟨taken, rfl, expression, inner, _⟩ := ihArgument
    obtain ⟨others, rfl, arguments, inner', _⟩ := ihArguments
    refine ⟨taken ++ comma :: others, by simp, .argument expression goesOn arguments, ?_, nofun⟩
    simpa [or_imp, forall_and, goesOn] using ⟨inner, inner'⟩

/-- Tokens that form a part contain no end, and links among them begin with an operator. -/
theorem Forms.formsBefore {tokens : List Token} (forms : Forms table part room tokens) :
    FormsBefore table part room tokens [] tokens := by
  obtain ⟨taken, before⟩ := (forms [] nofun).exists_forms
  have same := before.tokens_eq
  rw [List.append_nil, List.append_nil] at same
  subst same
  rw [List.append_nil] at before
  exact before

/-! ### Tokens that can be completed -/

/-- Whether some tokens form a part of an expression together with others behind them. -/
def Completable (table : PrecedenceTable) (part : Nonterminal) (room : Nat) (tokens : List Token) :
    Prop :=
  ∃ completion, Forms table part room (tokens ++ completion)

/-- A number, for where an operand is due. -/
def Token.someNumber : Token := .unplaced .number "1"

/-- A parenthesis, for where a list or a group is to be closed. -/
def Token.someClosing : Token := .unplaced .closeParen ")"

namespace Completable

variable {tokens others : List Token}

/-- Where an operand is due, a number is one. -/
theorem nothing : Completable table .operand room [] := ⟨[.someNumber], .number rfl rfl⟩

theorem alone (operand : Completable table .operand room tokens) :
    Completable table .expression (room + 1) tokens := by
  obtain ⟨completion, forms⟩ := operand
  exact ⟨completion, forms.alone⟩

theorem expression (operand : Forms table .operand room tokens)
    (links : Completable table .links room others) :
    Completable table .expression (room + 1) (tokens ++ others) := by
  obtain ⟨completion, forms⟩ := links
  refine ⟨completion, ?_⟩
  rw [List.append_assoc]
  exact operand.expression forms (forms.formsBefore.apart rfl)

theorem link_operand {operator : Token} {precedence : UInt16}
    (joins : table.Joins operator precedence) (operand : Completable table .operand room tokens) :
    Completable table .links room (operator :: tokens) := by
  obtain ⟨completion, forms⟩ := operand
  refine ⟨completion, ?_⟩
  have linked := Forms.link joins forms .noLink nofun
  rw [List.append_nil] at linked
  exact linked

theorem link {operator : Token} {precedence : UInt16} (joins : table.Joins operator precedence)
    (operand : Forms table .operand room tokens) (links : Completable table .links room others) :
    Completable table .links room (operator :: (tokens ++ others)) := by
  obtain ⟨completion, forms⟩ := links
  refine ⟨completion, ?_⟩
  rw [List.cons_append, List.append_assoc]
  exact .link joins operand forms (forms.formsBefore.apart rfl)

theorem append_links (first : Forms table .links room tokens)
    (second : Completable table .links room others) :
    Completable table .links room (tokens ++ others) := by
  obtain ⟨completion, forms⟩ := second
  refine ⟨completion, ?_⟩
  rw [List.append_assoc]
  exact first.append_links forms (forms.formsBefore.apart rfl)

theorem group {opening : Token} (opens : opening.kind = .openParen)
    (inner : Completable table .expression room tokens) :
    Completable table .operand room (opening :: tokens) := by
  obtain ⟨completion, forms⟩ := inner
  refine ⟨completion ++ [.someClosing], ?_⟩
  rw [List.cons_append, ← List.append_assoc]
  exact .group opens forms rfl

theorem call {name opening : Token} (kind : name.kind = .identifier)
    (opens : opening.kind = .openParen) (arguments : Completable table .arguments room tokens) :
    Completable table .operand room (name :: opening :: tokens) := by
  obtain ⟨completion, forms⟩ := arguments
  exact ⟨completion, .call kind opens forms⟩

theorem lastArgument (argument : Completable table .expression room tokens) :
    Completable table .arguments room tokens := by
  obtain ⟨completion, forms⟩ := argument
  refine ⟨completion ++ [.someClosing], ?_⟩
  rw [← List.append_assoc]
  exact forms.lastArgument rfl

theorem argument {comma : Token} (argument : Forms table .expression room tokens)
    (goesOn : comma.kind = .comma) (arguments : Completable table .arguments room others) :
    Completable table .arguments room (tokens ++ comma :: others) := by
  obtain ⟨completion, forms⟩ := arguments
  refine ⟨completion, ?_⟩
  rw [List.append_assoc]
  exact argument.argument goesOn forms

end Completable

/-- What forms a part already is completed by nothing. -/
theorem Forms.completable {tokens : List Token} (forms : Forms table part room tokens) :
    Completable table part room tokens :=
  ⟨[], by rw [List.append_nil]; exact forms⟩

end

namespace Parser

variable {state after : ParseState}

/-! ### What was taken before a failure -/

theorem room_of_takes {taken : List Token} (takes : state.Takes taken after) :
    room after = room state :=
  congrArg (256 - ·) takes.depth_eq

theorem room_advance (state : ParseState) : room state.advance = room state := rfl

/-- The tokens that a part was parsed from form that part. -/
theorem Accounts.exists_forms {mentions : List Mention}
    (accounts : Accounts table part state mentions after) :
    ∃ taken, state.Takes taken after ∧ Forms table part (room state) taken := by
  obtain ⟨taken, takes, _⟩ := accounts.moved
  obtain ⟨formed, before⟩ := accounts.derives.exists_forms
  have same := takes.upcoming_eq.symm.trans before.tokens_eq
  rw [List.append_cancel_right same] at takes
  exact ⟨formed, takes, before.forms⟩

/-- Whether a parser that fails in a state, at a token that is out of place, has taken tokens that can
be completed to a part of an expression. -/
def FailsCompletably {α : Type} (table : PrecedenceTable) (part : Nonterminal) (parser : Parser α)
    (state : ParseState) : Prop :=
  ∀ diagnostic after, parser.Fails state diagnostic after → diagnostic.cause.IsMisplacement →
    ∃ taken, state.Takes taken after ∧ Completable table part (room state) taken

/-- The same of a parser of operands that starts behind their first token, of the given kind. -/
def RestFailsCompletably (table : PrecedenceTable) (parser : Parser Expr) (kind : Token.Kind)
    (state : ParseState) : Prop :=
  ∀ diagnostic after, parser.Fails state diagnostic after → diagnostic.cause.IsMisplacement →
    ∃ taken, state.Takes taken after ∧
      ∀ token : Token, token.kind = kind →
        Completable table .operand (room state) (token :: taken)

theorem expr_failsCompletably
    (onOperand : FailsCompletably table .operand (operand (.ofTable table)) state.deeper)
    (onChain : ∀ first middle, (operand (.ofTable table)).Yields state.deeper first middle →
      FailsCompletably table .links (chain (.ofTable table) 0 first) middle) :
    FailsCompletably table .expression (expr (.ofTable table)) state := by
  intro diagnostic after fails misplaced
  rcases fails_expr.mp fails with ⟨_, rfl, _⟩ | ⟨notFull, last, rfl, inside⟩
  · exact absurd rfl misplaced
  rw [room_of_lt (isFull_ofTable_eq_false.mp notFull)]
  rcases inside with inOperand | ⟨first, middle, yields, inChain⟩
  · obtain ⟨taken, takes, completable⟩ := onOperand diagnostic last inOperand misplaced
    exact ⟨taken, takes.shallower, completable.alone⟩
  · obtain ⟨taken, takes, forms⟩ := (operand_accounts _ first middle yields).exists_forms
    obtain ⟨others, takes', completable⟩ :=
      onChain first middle yields diagnostic last inChain misplaced
    rw [room_of_takes takes] at completable
    exact ⟨taken ++ others, (takes.trans takes').shallower, .expression forms completable⟩

theorem operand_failsCompletably_of_number (kind : state.current.kind = .number) :
    FailsCompletably table .operand (operand (.ofTable table)) state := by
  intro diagnostic after fails misplaced
  have number : number.Fails state diagnostic after := by
    simpa [kind] using fails_operand.mp fails
  obtain ⟨_, rfl, _⟩ := fails_number.mp number
  exact absurd misplaced id

/-- An operand fails completably if its parts behind the first token do. -/
theorem operand_failsCompletably_of_rest (rest : Parser Expr) {kind : Token.Kind}
    (first : state.current.kind = kind) (inner : kind ≠ .eof)
    (onRest : RestFailsCompletably table rest kind state.advance)
    (only : ∀ diagnostic after, (operand (.ofTable table)).Fails state diagnostic after →
      rest.Fails state.advance diagnostic after) :
    FailsCompletably table .operand (operand (.ofTable table)) state := by
  intro diagnostic after fails misplaced
  obtain ⟨taken, takes, completable⟩ :=
    onRest diagnostic after (only diagnostic after fails) misplaced
  exact ⟨_, .token (ParseState.remaining_pos_of_kind first inner) takes,
    completable state.current first⟩

/-- Where no operand begins, nothing was taken, and a number would be one. -/
theorem operand_failsCompletably_of_noOperand (noNumber : state.current.kind ≠ .number)
    (noName : state.current.kind ≠ .identifier) (noGroup : state.current.kind ≠ .openParen) :
    FailsCompletably table .operand (operand (.ofTable table)) state := by
  intro diagnostic after fails _
  obtain ⟨_, rfl⟩ : diagnostic = ⟨.noExpression state.current.value, state.current.start⟩ ∧
      after = state := by
    simpa [noNumber, noName, noGroup] using fails_operand.mp fails
  exact ⟨[], .nothing, .nothing⟩

theorem groupRest_failsCompletably
    (onExpr : FailsCompletably table .expression (expr (.ofTable table)) state) :
    RestFailsCompletably table (groupRest (.ofTable table)) .openParen state := by
  intro diagnostic after fails misplaced
  rcases fails_groupRest.mp fails with inExpr | ⟨inner, yields, _⟩
  · obtain ⟨taken, takes, completable⟩ := onExpr diagnostic after inExpr misplaced
    exact ⟨taken, takes, fun opening opens => .group opens completable⟩
  · obtain ⟨taken, takes, forms⟩ := (expr_accounts state inner after yields).exists_forms
    exact ⟨taken, takes, fun opening opens => .group opens forms.completable⟩

theorem referenceRest_failsCompletably {name : String}
    (onArguments : state.current.kind = .openParen → state.advance.current.kind ≠ .closeParen →
      FailsCompletably table .arguments (arguments (.ofTable table)) state.advance) :
    RestFailsCompletably table (referenceRest (.ofTable table) name) .identifier state := by
  intro diagnostic after fails misplaced
  obtain ⟨opens, given, inArguments⟩ := fails_referenceRest.mp fails
  obtain ⟨taken, takes, completable⟩ :=
    onArguments opens given diagnostic after inArguments misplaced
  exact ⟨_, .token (ParseState.remaining_pos_of_kind opens nofun) takes, fun token kind =>
    .call kind opens completable⟩

theorem arguments_failsCompletably
    (onExpr : FailsCompletably table .expression (expr (.ofTable table)) state)
    (onRest : ∀ first middle, (expr (.ofTable table)).Yields state first middle →
      FailsCompletably table .arguments (arguments (.ofTable table)) middle.advance) :
    FailsCompletably table .arguments (arguments (.ofTable table)) state := by
  intro diagnostic after fails misplaced
  rcases fails_arguments.mp fails with inExpr | ⟨first, middle, yields, behind⟩
  · obtain ⟨taken, takes, completable⟩ := onExpr diagnostic after inExpr misplaced
    exact ⟨taken, takes, completable.lastArgument⟩
  obtain ⟨taken, takes, forms⟩ := (expr_accounts state first middle yields).exists_forms
  rcases behind with ⟨_, _, _, rfl⟩ | ⟨goesOn, inRest⟩
  · exact ⟨taken, takes, forms.completable.lastArgument⟩
  · obtain ⟨others, takes', completable⟩ :=
      onRest first middle yields diagnostic after inRest misplaced
    rw [room_advance, room_of_takes takes] at completable
    exact ⟨_, takes.trans (.token (ParseState.remaining_pos_of_kind goesOn nofun) takes'),
      .argument forms goesOn completable⟩

theorem chain_failsCompletably {minimum : Int} {left : Expr} (valid : 0 ≤ minimum)
    (onOperand : FailsCompletably table .operand (operand (.ofTable table)) state.advance)
    (onInner : ∀ first middle, (operand (.ofTable table)).Yields state.advance first middle →
      FailsCompletably table .links
        (chain (.ofTable table) ((Grammar.ofTable table).bindingPower state.current + 1) first)
        middle)
    (onRest : ∀ first middle right last,
      (operand (.ofTable table)).Yields state.advance first middle →
      (extended (.ofTable table) ((Grammar.ofTable table).bindingPower state.current)
        first).Yields middle right last →
      FailsCompletably table .links
        (chain (.ofTable table) minimum (.binary state.current.value left right)) last) :
    FailsCompletably table .links (chain (.ofTable table) minimum left) state := by
  intro diagnostic after fails misplaced
  obtain ⟨tight, behind⟩ := fails_chain.mp fails
  obtain ⟨precedence, joins⟩ := Grammar.joins_of_bindingPower (Int.le_trans valid tight)
  have more : 0 < state.remaining := ParseState.remaining_pos_of_kind joins.1 nofun
  rcases behind with inOperand | ⟨first, middle, yields, behind⟩
  · obtain ⟨taken, takes, completable⟩ := onOperand diagnostic after inOperand misplaced
    exact ⟨_, .token more takes, .link_operand joins completable⟩
  obtain ⟨taken, takes, forms⟩ := (operand_accounts state.advance first middle yields).exists_forms
  have roomMiddle : room middle = room state :=
    (room_of_takes takes).trans (room_advance state)
  rcases behind with inExtended | ⟨right, last, extension, inRest⟩
  · obtain ⟨_, inChain⟩ := fails_extended.mp inExtended
    obtain ⟨others, takes', completable⟩ :=
      onInner first middle yields diagnostic after inChain misplaced
    rw [roomMiddle] at completable
    exact ⟨_, .token more (takes.trans takes'), .link joins forms completable⟩
  · obtain ⟨between, takesBetween, formsBetween⟩ :
        ∃ between, middle.Takes between last ∧ Forms table .links (room middle) between := by
      rcases yields_extended.mp extension with ⟨_, chain⟩ | ⟨_, _, rfl⟩
      · obtain ⟨_, _, accounts⟩ := (parsers_accountedFor table).2.1 _ first middle (by omega)
          right last chain
        exact accounts.exists_forms
      · exact ⟨[], .nothing, .noLink⟩
    obtain ⟨others, takes', completable⟩ :=
      onRest first middle right last yields extension diagnostic after inRest misplaced
    rw [room_of_takes takesBetween, roomMiddle] at completable
    rw [roomMiddle] at formsBetween
    exact ⟨_, .token more (takes.trans (takesBetween.trans takes')),
      .link joins forms (.append_links formsBetween completable)⟩

/-- **Where an expression parser fails at a token out of place,** what it took can be completed. -/
theorem parsers_failCompletably (table : PrecedenceTable) :
    (∀ state, FailsCompletably table .expression (expr (.ofTable table)) state) ∧
    (∀ (minimum : Int) (left : Expr) (state : ParseState), 0 ≤ minimum →
      FailsCompletably table .links (chain (.ofTable table) minimum left) state) ∧
    (∀ state, FailsCompletably table .operand (operand (.ofTable table)) state) ∧
    (∀ state, RestFailsCompletably table (groupRest (.ofTable table)) .openParen state) ∧
    (∀ name state,
      RestFailsCompletably table (referenceRest (.ofTable table) name) .identifier state) ∧
    (∀ state, FailsCompletably table .arguments (arguments (.ofTable table)) state) := by
  refine expr_induction (.ofTable table) ?opened ?number ?identifier ?openParen ?noOperand
    ?groupRest ?reference ?emptyCall ?call ?arguments ?stop ?fold
  case opened =>
    intro state onOperand onChain
    exact expr_failsCompletably onOperand fun first middle yields =>
      onChain first middle yields (Int.le_refl 0)
  case number => exact fun state kind => operand_failsCompletably_of_number kind
  case identifier =>
    intro state kind onReferenceRest
    refine operand_failsCompletably_of_rest (referenceRest (.ofTable table) state.current.value)
      kind (by decide) onReferenceRest fun diagnostic after fails => ?_
    simpa [kind] using fails_operand.mp fails
  case openParen =>
    intro state kind onGroupRest
    refine operand_failsCompletably_of_rest (groupRest (.ofTable table)) kind (by decide)
      onGroupRest fun diagnostic after fails => ?_
    simpa [kind] using fails_operand.mp fails
  case noOperand =>
    exact fun state noNumber noName noGroup =>
      operand_failsCompletably_of_noOperand noNumber noName noGroup
  case groupRest => exact fun state onExpr => groupRest_failsCompletably onExpr
  case reference =>
    exact fun name state noCall =>
      referenceRest_failsCompletably fun opens => absurd opens noCall
  case emptyCall =>
    exact fun name state opens closes =>
      referenceRest_failsCompletably fun _ given => absurd closes given
  case call =>
    exact fun name state opens given onArguments =>
      referenceRest_failsCompletably fun _ _ => onArguments
  case arguments => exact fun state onExpr onRest => arguments_failsCompletably onExpr onRest
  case stop =>
    intro minimum left state loose valid diagnostic after fails
    exact absurd (fails_chain.mp fails).1 (Int.not_le.mpr loose)
  case fold =>
    intro minimum left state tight onOperand onInner onRest valid
    refine chain_failsCompletably valid onOperand ?_ ?_
    · exact fun first middle yields => onInner first middle yields (by omega)
    · exact fun first middle right last yields extension =>
        onRest first middle right last yields extension valid

end Parser

end OpLang
