/-
**Faults are found at the earliest token.**

A statement is parsed by the parser that its first token chooses (`statement`). Where that parser finds
a token out of place, the tokens before it are no mistake yet, for with others behind them the same
parser accepts them whole; with that token they are one, whatever follows.

* `prototype_completable`, `statement_completable`: what was taken before the failure can be completed,
  a prototype by names and parentheses and a body as an expression (`parsers_failCompletably`).
* `acceptsWhole_of_forms`: what was completed is accepted, since the grammar has it as a statement.
* `statement_looksNoFurther`, `LooksNoFurther.refuses`: the failure was settled by the tokens taken and
  the one at fault, so it comes again whatever follows them.
* `statement_faultsEarliest`: hence that one is the first token at which the statement cannot go on.
-/

import OpLang.Proofs.Expr.Completion
import OpLang.Proofs.Item.Fails
import OpLang.Proofs.Parser.Lookahead
import OpLang.Proofs.Program.Rendering

namespace OpLang

variable {table : PrecedenceTable}

/-- A name, for where a function or a parameter is due. -/
def Token.someName : Token := .unplaced .identifier "x"

/-- A parenthesis, for where the parameters are to open. -/
def Token.someOpening : Token := .unplaced .openParen "("

namespace Parser

open ParseState (Takes)

variable {grammar : Grammar} {state after : ParseState} {diagnostic : Diagnostic}

/-! ### Prototypes -/

/-- Parameters that were parsed are written by the tokens taken. -/
theorem renders_of_parameters {names : List String} (yields : parameters.Yields state names after) :
    ∃ taken, state.Takes taken after ∧ RendersParameters names taken := by
  induction state using parameters_induction generalizing names with
  | step state ih =>
    obtain ⟨kind, ⟨closes, rfl, rfl⟩ | ⟨goesOn, others, further, rfl⟩⟩ := yields_parameters.mp yields
    · exact ⟨_, (Takes.of_kind kind nofun).trans (.of_kind closes nofun), .last kind closes⟩
    · obtain ⟨taken, takes, renders⟩ := ih kind further
      exact ⟨_, (Takes.of_kind kind nofun).trans ((Takes.of_kind goesOn nofun).trans takes),
        .more kind goesOn renders⟩

/-- A prototype that was parsed is written by the tokens taken. -/
theorem renders_of_prototype {read : Prototype} (yields : prototype.Yields state read after) :
    ∃ taken, state.Takes taken after ∧ RendersPrototype read taken := by
  obtain ⟨kind, opens, inside⟩ := yields_prototype.mp yields
  have name := Takes.of_kind kind nofun
  have opening := Takes.of_kind opens nofun
  rcases inside with ⟨closes, rfl, rfl⟩ | ⟨_, names, further, rfl⟩
  · have closing := Takes.of_kind closes nofun
    exact ⟨_, name.trans (opening.trans closing), .bare kind opens closes⟩
  · obtain ⟨taken, takes, renders⟩ := renders_of_parameters further
    exact ⟨_, name.trans (opening.trans takes), .withParameters kind opens renders⟩

/-- Where parameters fail, what they took can be completed to some. -/
theorem parameters_completable (fails : parameters.Fails state diagnostic after) :
    ∃ taken, state.Takes taken after ∧
      ∃ completion names, RendersParameters names (taken ++ completion) := by
  induction state using parameters_induction with
  | step state ih =>
    rcases fails_parameters.mp fails with ⟨_, _, rfl⟩ | ⟨kind, behind⟩
    · exact ⟨[], .nothing, [.someName, .someClosing], _, .last rfl rfl⟩
    have name := Takes.of_kind kind nofun
    rcases behind with ⟨_, _, _, rfl⟩ | ⟨goesOn, fails⟩
    · exact ⟨_, name, [.someClosing], _, .last kind rfl⟩
    · obtain ⟨taken, takes, completion, names, renders⟩ := ih kind fails
      exact ⟨_, name.trans ((Takes.of_kind goesOn nofun).trans takes), completion, _,
        .more kind goesOn renders⟩

/-- **Where a prototype fails,** what it took can be completed to one. -/
theorem prototype_completable (fails : prototype.Fails state diagnostic after) :
    ∃ taken, state.Takes taken after ∧
      ∃ completion read, RendersPrototype read (taken ++ completion) := by
  rcases fails_prototype.mp fails with ⟨_, _, rfl⟩ | ⟨kind, behind⟩
  · exact ⟨[], .nothing, [.someName, .someOpening, .someClosing], _, .bare rfl rfl rfl⟩
  have name := Takes.of_kind kind nofun
  rcases behind with ⟨_, _, rfl⟩ | ⟨opens, _, fails⟩
  · exact ⟨_, name, [.someOpening, .someClosing], _, .bare kind rfl rfl⟩
  · have opening := Takes.of_kind opens nofun
    obtain ⟨taken, takes, completion, names, renders⟩ := parameters_completable fails
    exact ⟨_, name.trans (opening.trans takes), completion, _, .withParameters kind opens renders⟩

/-! ### Statements -/

/-- The parser that items are parsed by whose first token is of the given kind. -/
def statement (grammar : Grammar) (kind : Token.Kind) : Parser Item :=
  match kind with
  | .defKeyword => do
    let function ← definition grammar
    pure (.definition function)
  | .externKeyword => do
    let prototype ← external
    pure (.external prototype)
  | _ => do
    let function ← anonymousFunction grammar
    pure (.expression function)

theorem statement_of_ne {kind : Token.Kind} (noDefinition : kind ≠ .defKeyword)
    (noExternal : kind ≠ .externKeyword) :
    statement grammar kind =
      anonymousFunction grammar >>= fun function => pure (.expression function) := by
  cases kind with
  | defKeyword => exact absurd rfl noDefinition
  | externKeyword => exact absurd rfl noExternal
  | _ => rfl

/-- An item is parsed by the parser that its first token chooses. -/
theorem item_apply (grammar : Grammar) (state : ParseState) :
    item grammar state = statement grammar state.current.kind state := by
  rw [item, current_bind]
  cases state.current.kind <;> rfl

/-- A statement looks no further, as its parts do not; a keyword that it takes unseen is no end. -/
theorem statement_looksNoFurther {kind : Token.Kind}
    (begins : kind = .defKeyword ∨ kind = .externKeyword → state.current.kind ≠ .eof) :
    LooksNoFurther (statement grammar kind) state := by
  have onDefinition (more : state.current.kind ≠ .eof) :
      LooksNoFurther (definition grammar) state :=
    (@settling grammar grammar rfl).definition_related more
  have onExternal (more : state.current.kind ≠ .eof) : LooksNoFurther external state :=
    (@settling grammar grammar rfl).external_related more
  have onExpression : LooksNoFurther (anonymousFunction grammar) state :=
    (@settling grammar grammar rfl).anonymousFunction_related state
  cases kind with
  | defKeyword => exact (onDefinition (begins (.inl rfl))).wrap
  | externKeyword => exact (onExternal (begins (.inr rfl))).wrap
  | _ => exact onExpression.wrap

/-- Whether a parser accepts some tokens whole: it yields, and stops at the end behind all of them. -/
def AcceptsWhole {α : Type} (parser : Parser α) (tokens : List Token) : Prop :=
  ∃ value after, parser.Yields (.ofTokens tokens) value after ∧
    (ParseState.ofTokens tokens).Takes tokens after ∧ after.current.kind = .eof

/-- Whether some tokens are a statement of the given kind, as the grammar has it. -/
inductive FormsStatement (table : PrecedenceTable) : Token.Kind → List Token → Prop where
  | definition {keyword : Token} {signature : Prototype} {tokens others : List Token}
      (kind : keyword.kind = .defKeyword) (named : RendersPrototype signature tokens)
      (body : Forms table .expression 256 others) :
      FormsStatement table .defKeyword (keyword :: (tokens ++ others))
  | external {keyword : Token} {signature : Prototype} {tokens : List Token}
      (kind : keyword.kind = .externKeyword) (named : RendersPrototype signature tokens) :
      FormsStatement table .externKeyword (keyword :: tokens)
  | expression {kind : Token.Kind} {tokens : List Token} (noDefinition : kind ≠ .defKeyword)
      (noExternal : kind ≠ .externKeyword) (body : Forms table .expression 256 tokens) :
      FormsStatement table kind tokens

/-- A statement contains no end. -/
theorem FormsStatement.kind_ne_eof {kind : Token.Kind} {tokens : List Token}
    (forms : FormsStatement table kind tokens) : ∀ token ∈ tokens, token.kind ≠ .eof := by
  cases forms with
  | definition kind named body =>
    simpa [kind, or_imp, forall_and] using ⟨named.kind_ne_eof, body.formsBefore.inner⟩
  | external kind named => simpa [kind] using named.kind_ne_eof
  | expression _ _ body => exact body.formsBefore.inner

/-- Tokens that form a definition or an external declaration begin with its keyword. -/
theorem FormsStatement.exists_keyword {kind : Token.Kind} {tokens : List Token}
    (forms : FormsStatement table kind tokens) (begins : kind = .defKeyword ∨ kind = .externKeyword) :
    ∃ keyword others, tokens = keyword :: others ∧ keyword.kind = kind := by
  cases forms with
  | definition kind _ _ => exact ⟨_, _, rfl, kind⟩
  | external kind _ => exact ⟨_, _, rfl, kind⟩
  | expression noDefinition noExternal _ =>
    exact absurd begins (not_or.mpr ⟨noDefinition, noExternal⟩)

/-- An expression is parsed where its tokens are to come before an end. -/
theorem expr_of_forms {tokens : List Token} {ending : Token} (outermost : state.depth = 0)
    (forms : Forms table .expression 256 tokens) (upcoming : state.upcoming = tokens ++ [ending])
    (ended : ending.kind = .eof) :
    ∃ body after, (expr (.ofTable table)).Yields state body after ∧ after.upcoming = [ending] :=
  accepted_of_derives (forms [ending] (noCall_of_kind (by simp [ended]))) state upcoming (by omega)
    (noOperator_of_kind (by simp [ended]))

/-- A statement is parsed where its tokens are to come before an end. -/
theorem statement_of_forms {kind : Token.Kind} {tokens : List Token} {ending : Token}
    (outermost : state.depth = 0) (forms : FormsStatement table kind tokens)
    (upcoming : state.upcoming = tokens ++ [ending]) (ended : ending.kind = .eof) :
    ∃ value after, (statement (.ofTable table) kind).Yields state value after ∧
      after.upcoming = [ending] := by
  cases forms with
  | @definition _ signature _ _ kind named body =>
    rw [List.cons_append, List.append_assoc] at upcoming
    obtain ⟨rfl, behind⟩ := ParseState.upcoming_advance upcoming (by simp [kind])
    obtain ⟨middle, yieldsNamed, middleUpcoming⟩ := prototype_of_renders named behind
    have depth : middle.depth = 0 :=
      ((prototype_keepsDepth state.advance).of_yields yieldsNamed).trans outermost
    obtain ⟨value, after, yields, ends⟩ := expr_of_forms depth body middleUpcoming ended
    have function : (definition (.ofTable table)).Yields state ⟨signature, value⟩ after :=
      yields_definition.mpr ⟨signature, middle, value, yieldsNamed, yields, rfl⟩
    exact ⟨_, after, yields_wrap.mpr ⟨_, function, rfl⟩, ends⟩
  | external kind named =>
    obtain ⟨rfl, behind⟩ := ParseState.upcoming_advance upcoming (by simp [kind])
    obtain ⟨after, yields, ends⟩ := prototype_of_renders named behind
    exact ⟨_, after, yields_wrap.mpr ⟨_, yields_external.mpr yields, rfl⟩, ends⟩
  | expression noDefinition noExternal body =>
    obtain ⟨value, after, yields, ends⟩ := expr_of_forms outermost body upcoming ended
    have function : (anonymousFunction (.ofTable table)).Yields state ⟨.anonymous, value⟩ after :=
      yields_anonymousFunction.mpr ⟨value, yields, rfl⟩
    rw [statement_of_ne noDefinition noExternal]
    exact ⟨_, after, yields_wrap.mpr ⟨_, function, rfl⟩, ends⟩

/-- **What the grammar has as a statement is accepted whole.** -/
theorem acceptsWhole_of_forms {kind : Token.Kind} {tokens : List Token}
    (forms : FormsStatement table kind tokens) :
    AcceptsWhole (statement (.ofTable table) kind) tokens := by
  obtain ⟨last, ended, start⟩ := ParseState.ofTokens_of_getLast? fun token final =>
    forms.kind_ne_eof token (List.mem_of_getLast? final)
  have upcoming : (ParseState.ofTokens tokens).upcoming = tokens ++ [last] := by
    rw [start]
    rfl
  obtain ⟨value, after, ⟨trace, reply⟩, ends⟩ := statement_of_forms rfl forms upcoming ended
  have looks : LooksNoFurther (statement (.ofTable table) kind) (.ofTokens tokens) := by
    refine statement_looksNoFurther fun begins => ?_
    obtain ⟨keyword, others, rfl, kind⟩ := forms.exists_keyword begins
    rw [ParseState.current_eq_of_upcoming upcoming]
    exact forms.kind_ne_eof keyword List.mem_cons_self
  obtain ⟨taken, takes, _⟩ := looks
  rw [reply] at takes
  have same := takes.upcoming_eq.symm.trans upcoming
  rw [show (Reply.parsed value after trace).after.upcoming = [last] from ends] at same
  rw [List.append_cancel_right same] at takes
  refine ⟨value, after, ⟨trace, reply⟩, takes, ?_⟩
  rw [ParseState.current_eq_of_upcoming ends]
  exact ended

/-! ### Failing statements -/

/-- **Where a statement fails at a token out of place,** what it took can be completed to one. -/
theorem statement_completable (outermost : state.depth = 0)
    (fails : (statement (.ofTable table) state.current.kind).Fails state diagnostic after)
    (misplaced : diagnostic.cause.IsMisplacement) :
    ∃ taken, state.Takes taken after ∧
      ∃ completion, FormsStatement table state.current.kind (taken ++ completion) := by
  have onExpr (start : ParseState) (atTop : start.depth = 0) :
      (expr (.ofTable table)).Fails start diagnostic after →
      ∃ taken, start.Takes taken after ∧ Completable table .expression 256 taken := by
    intro inExpr
    obtain ⟨taken, takes, completable⟩ :=
      (parsers_failCompletably table).1 start diagnostic after inExpr misplaced
    rw [show room start = 256 by rw [room, atTop]] at completable
    exact ⟨taken, takes, completable⟩
  cases kind : state.current.kind with
  | defKeyword =>
    have keyword := Takes.of_kind kind nofun
    rw [kind] at fails
    rcases fails_definition.mp (fails_wrap.mp fails) with
      inPrototype | ⟨signature, middle, yields, inBody⟩
    · obtain ⟨taken, takes, completion, signature, renders⟩ := prototype_completable inPrototype
      have body : Forms table .expression 256 [.someNumber] := (Forms.number rfl rfl).alone
      have forms := FormsStatement.definition kind renders body
      rw [List.append_assoc] at forms
      exact ⟨_, keyword.trans takes, _, forms⟩
    · obtain ⟨taken, takes, renders⟩ := renders_of_prototype yields
      have atTop : middle.depth = 0 := takes.depth_eq.trans outermost
      obtain ⟨others, takes', completion, body⟩ := onExpr middle atTop inBody
      have forms := FormsStatement.definition kind renders body
      rw [← List.append_assoc] at forms
      exact ⟨_, keyword.trans (takes.trans takes'), _, forms⟩
  | externKeyword =>
    have keyword := Takes.of_kind kind nofun
    rw [kind] at fails
    have inPrototype : prototype.Fails state.advance diagnostic after :=
      fails_advance_bind.mp (fails_wrap.mp fails)
    obtain ⟨taken, takes, completion, signature, renders⟩ := prototype_completable inPrototype
    exact ⟨_, keyword.trans takes, completion, .external kind renders⟩
  | _ =>
    rw [kind] at fails
    have inBody : (expr (.ofTable table)).Fails state diagnostic after :=
      fails_wrap.mp (fails_wrap.mp fails)
    obtain ⟨taken, takes, completion, body⟩ := onExpr state outermost inBody
    exact ⟨taken, takes, completion, .expression nofun nofun body⟩

/-- What a misplacement quotes is the token where the statement stops. -/
theorem statement_raised
    (fails : (statement grammar state.current.kind).Fails state diagnostic after)
    (misplaced : diagnostic.cause.IsMisplacement) :
    diagnostic = diagnostic.raisedAt after.current := by
  obtain ⟨trace, reply⟩ := fails
  rw [← item_apply] at reply
  obtain ⟨_, _, faults⟩ := (item_walks grammar state).of_failed reply
  cases faults with
  | current here => exact (Diagnostic.raisedAt_raisedAt _ _ _).symm
  | number _ _ _ => exact absurd misplaced id

/-- **A parser that looks no further fails again** on all tokens that begin with those it took and the one
at which it failed. -/
theorem LooksNoFurther.refuses {α : Type} {parser : Parser α} (looks : LooksNoFurther parser state)
    (outermost : state.depth = 0) (fails : parser.Fails state diagnostic after) :
    ∃ taken, state.Takes taken after ∧ ∀ others value last,
      ¬ parser.Yields (.ofTokens (taken ++ after.current :: others)) value last := by
  obtain ⟨trace, reply⟩ := fails
  obtain ⟨taken, takes, settled⟩ := looks.of_failed reply
  refine ⟨taken, takes, ?_⟩
  rintro others value last ⟨trace', reply'⟩
  have upcoming : ∃ behind, (ParseState.ofTokens (taken ++ after.current :: others)).upcoming =
      taken ++ after.current :: behind := by
    rcases ParseState.upcoming_ofTokens (taken ++ after.current :: others) with
      ⟨_, _, _, _, same⟩ | ⟨_, ending, _, same⟩
    · exact ⟨others, same⟩
    · exact ⟨others ++ [ending], by rw [same]; simp⟩
  obtain ⟨behind, upcoming⟩ := upcoming
  have result := settled _ behind outermost.symm upcoming
  rw [reply'] at result
  cases result

/-- **A fault is found at the earliest token.** Where the parser that a statement's first token chooses
fails at a token that is out of place, the tokens before it can be completed so that the same parser
accepts them whole, and no list of tokens that begins with them and that token is accepted. -/
theorem statement_faultsEarliest (table : PrecedenceTable) {state after : ParseState}
    {diagnostic : Diagnostic} (outermost : state.depth = 0)
    (fails : (statement (.ofTable table) state.current.kind).Fails state diagnostic after)
    (misplaced : diagnostic.cause.IsMisplacement) :
    let parser := statement (.ofTable table) state.current.kind
    ∃ taken, state.Takes taken after ∧ diagnostic = diagnostic.raisedAt after.current ∧
      (∃ completion, AcceptsWhole parser (taken ++ completion)) ∧
      ∀ others value last,
        ¬ parser.Yields (.ofTokens (taken ++ after.current :: others)) value last := by
  intro parser
  obtain ⟨taken, takes, completion, forms⟩ := statement_completable outermost fails misplaced
  have looks : LooksNoFurther parser state := by
    refine statement_looksNoFurther ?_
    rintro (kind | kind) <;> simp [kind]
  obtain ⟨taken', takes', refused⟩ := looks.refuses outermost fails
  obtain ⟨rfl, _⟩ := takes.unique_of_upcoming_eq takes' rfl
  exact ⟨taken, takes, statement_raised fails misplaced, ⟨completion, acceptsWhole_of_forms forms⟩,
    refused⟩

/-- The tokens of `def f(x) g(x,)`. -/
def missingArgument : List Token :=
  [.unplaced .defKeyword "def", .unplaced .identifier "f", .unplaced .openParen "(",
    .unplaced .identifier "x", .unplaced .closeParen ")", .unplaced .identifier "g",
    .unplaced .openParen "(", .unplaced .identifier "x", .unplaced .comma ",",
    .unplaced .closeParen ")"]

/-- In `def f(x) g(x,)` the second closing parenthesis is at fault: up to it the definition can be
completed, and with it not. -/
theorem statement_faultsEarliest_missingArgument :
    let parser := statement (.ofTable .empty) .defKeyword
    let fault : ParseState := ⟨⟨9, [.unplaced .closeParen ")"], .atEnd .unknown, rfl⟩, 0⟩
    parser.Fails (.ofTokens missingArgument) ⟨.noExpression ")", .unknown⟩ fault ∧
      (∃ completion, AcceptsWhole parser (missingArgument.take 9 ++ completion)) ∧
      ∀ others value last, ¬ parser.Yields (.ofTokens (missingArgument ++ others)) value last := by
  intro parser fault
  have fails : (statement (.ofTable .empty) .defKeyword).Fails (.ofTokens missingArgument)
      ⟨.noExpression ")", .unknown⟩
      ⟨⟨9, [.unplaced .closeParen ")"], .atEnd .unknown, rfl⟩, 0⟩ := ⟨_, by cbv⟩
  obtain ⟨taken, takes, _, completed, refused⟩ :=
    @statement_faultsEarliest .empty (.ofTokens missingArgument) fault _ rfl fails trivial
  have upcoming : missingArgument.take 9 ++ fault.upcoming = taken ++ fault.upcoming :=
    takes.upcoming_eq
  obtain rfl := List.append_cancel_right upcoming
  exact ⟨fails, completed, refused⟩

end Parser

end OpLang
