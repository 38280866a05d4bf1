/-
**Where a call stops, and what its answer hangs on.**

A parser is called where its construct may begin (`Callable`): a definition and an external declaration
at their keywords, a chain above the operators that are none, and the others anywhere. Every congruence
relates a callable parser to itself, so what was shown of the operations holds of each call.

* `Callable.stopsAtFault`: a call that fails has moved the cursor over the tokens before the one at fault
  and stands at that one, which is the one that the driver skips. Only a number that cannot be read is
  taken, and then it is the last token that was.
* `Callable.settledByLookahead`: on every stream that agrees with the first one up to the token at which
  the call stopped there, the same call gives the same answer and stops at the same token.
-/

import OpLang.Proofs.Item.Fails
import OpLang.Proofs.Parser.Lookahead
import OpLang.Proofs.Program.Account

namespace OpLang

/-- Whether a diagnostic is about a token: it quotes the token and stands where the token starts. -/
structure Diagnostic.IsAbout (diagnostic : Diagnostic) (token : Token) : Prop where
  quotes : diagnostic.cause.quotes = token.value
  position : diagnostic.position = token.start

theorem Diagnostic.isAbout_raisedAt (diagnostic : Diagnostic) (token : Token) :
    (diagnostic.raisedAt token).IsAbout token := by
  obtain ⟨cause, position⟩ := diagnostic
  cases cause <;> exact ⟨rfl, rfl⟩

namespace ParseState

/-- The current token and the others to come. -/
theorem exists_upcoming_eq_cons (state : ParseState) :
    ∃ others, state.upcoming = state.current :: others :=
  List.head?_eq_some_iff.mp state.head?_upcoming

/-- The first tokens to come are those of a move and the one where it ends. -/
theorem Takes.take_upcoming {state after : ParseState} {taken : List Token}
    (takes : state.Takes taken after) :
    state.upcoming.take (taken.length + 1) = taken ++ [after.current] := by
  obtain ⟨others, upcoming⟩ := after.exists_upcoming_eq_cons
  rw [takes.upcoming_eq, upcoming, List.take_append, List.take_of_length_le (Nat.le_succ _),
    Nat.add_sub_cancel_left]
  rfl

end ParseState

namespace Parser

variable {grammar : Grammar} {α : Type} {parser : Parser α} {state : ParseState}

/-! ### Calls -/

/-- **Whether a parser may be called in a state.** -/
inductive Callable (grammar : Grammar) (state : ParseState) : {α : Type} → Parser α → Prop where
  | expr : Callable grammar state (expr grammar)
  | chain {minimum : Int} {left : Expr} (valid : 0 ≤ minimum) :
      Callable grammar state (chain grammar minimum left)
  | prototype : Callable grammar state prototype
  | definition (keyword : state.current.kind = .defKeyword) :
      Callable grammar state (definition grammar)
  | external (keyword : state.current.kind = .externKeyword) : Callable grammar state external
  | anonymousFunction : Callable grammar state (anonymousFunction grammar)

/-- The number of tokens that a parser takes from a state on. -/
def takenCount (parser : Parser α) (state : ParseState) : Nat :=
  (parser state).after.stream.consumed - state.stream.consumed

namespace Callable

/-- **Every congruence relates a callable parser to itself.** -/
theorem related (callable : Callable grammar state parser) (congruence : Congruence grammar grammar) :
    congruence.Related parser parser state := by
  cases callable with
  | expr => exact congruence.expr_related state
  | chain valid => exact congruence.parsers_related.2.1 _ _ state valid
  | prototype => exact congruence.prototype_related state
  | definition keyword => exact congruence.definition_related (by simp [keyword])
  | external keyword => exact congruence.external_related (by simp [keyword])
  | anonymousFunction => exact congruence.anonymousFunction_related state

theorem walks (callable : Callable grammar state parser) : Walks parser state :=
  callable.related (walking grammar)

theorem looksNoFurther (callable : Callable grammar state parser) : LooksNoFurther parser state :=
  callable.related (settling rfl)

/-! ### Calls that fail -/

/-- **A call that fails stops at the token at fault.** The cursor has moved over the tokens taken, each of
them once, and no further. If the diagnostic says that no expression begins at a token or that something
else was due there, it is about the current token, and this is the one that the driver skips, unless it
ends the stream. If it says that a number cannot be read, it is about the last token taken. There are no
other diagnostics. -/
theorem stopsAtFault {diagnostic : Diagnostic} {after : ParseState} {trace : List Step}
    (callable : Callable grammar state parser)
    (failed : parser state = .failed diagnostic after trace) :
    let next := (Turn.abandoned state diagnostic trace after).next
    ∃ taken, state.Takes taken after ∧ state.upcoming = taken ++ after.upcoming ∧
      after.stream.consumed = state.stream.consumed + taken.length ∧
      match diagnostic.cause with
      | .noExpression _ | .notDue _ _ =>
        diagnostic.IsAbout after.current ∧
          (0 < after.remaining → after.upcoming = after.current :: next.upcoming) ∧
          (after.remaining = 0 → next = after)
      | .badNumber _ =>
        ∃ earlier number, taken = earlier ++ [number] ∧ diagnostic.IsAbout number ∧
          number.kind = .number ∧ Numeral.read? number.value.toList = none
      | .unrecognised _ | .badEntry _ => False := by
  intro next
  obtain ⟨taken, takes, faults⟩ := callable.walks.of_failed failed
  refine ⟨taken, takes, takes.upcoming_eq, takes.consumed_eq, ?_⟩
  cases faults with
  | @current diagnostic here =>
    have about := diagnostic.isAbout_raisedAt after.current
    have skips : (0 < after.remaining → after.upcoming = after.current :: next.upcoming) ∧
        (after.remaining = 0 → next = after) :=
      ⟨ParseState.upcoming_of_remaining_pos,
        fun last => (ParseState.advance_of_remaining_eq_zero last).1⟩
    rw [← Diagnostic.isAtCurrent_raisedAt diagnostic after.current] at here
    cases cause : (diagnostic.raisedAt after.current).cause with
    | noExpression _ => exact ⟨about, skips⟩
    | notDue _ _ => exact ⟨about, skips⟩
    | unrecognised _ => simp [cause, Cause.isAtCurrent] at here
    | badNumber _ => simp [cause, Cause.isAtCurrent] at here
    | badEntry _ => simp [cause, Cause.isAtCurrent] at here
  | @number earlier token last kind unread =>
    exact ⟨earlier, token, last, ⟨rfl, rfl⟩, kind, unread⟩

/-- The tokens of `def f() x + 1.2.3)`, with a number that is no numeral. -/
def misspeltNumber : List Token :=
  [.unplaced .defKeyword "def", .unplaced .identifier "f", .unplaced .openParen "(",
    .unplaced .closeParen ")", .unplaced .identifier "x", .unplaced .operator "+",
    .unplaced .number "1.2.3", .unplaced .closeParen ")"]

/-- In `def f() x + 1.2.3)` the number is at fault, and it is the last token taken. -/
theorem stopsAtFault_misspeltNumber :
    let parser := Parser.definition (.ofTable .standard)
    let state := ParseState.ofTokens misspeltNumber
    let after : ParseState := ⟨⟨7, [.unplaced .closeParen ")"], .atEnd .unknown, rfl⟩, 0⟩
    state.current.kind = .defKeyword ∧ Fails parser state ⟨.badNumber "1.2.3", .unknown⟩ after ∧
      ∃ earlier number, misspeltNumber = earlier ++ [number, .unplaced .closeParen ")"] ∧
        number.kind = .number ∧ number.value = "1.2.3" := by
  intro parser state after
  let body := state.advance.advance.advance.advance
  have signature : Parser.prototype.Yields state.advance ⟨"f", []⟩ body :=
    yields_prototype.mpr ⟨rfl, rfl, .inl ⟨rfl, rfl, rfl⟩⟩
  have operand : (operand (.ofTable .standard)).Yields body.deeper (.reference "x")
      body.deeper.advance :=
    yields_operand_of_reference rfl (by decide)
  have unread : (Parser.operand (.ofTable .standard)).Fails body.deeper.advance.advance
      ⟨.badNumber "1.2.3", .unknown⟩ after.deeper :=
    fails_operand.mpr (.inl ⟨rfl, fails_number.mpr ⟨by decide, rfl, rfl⟩⟩)
  have inBody : (Parser.expr (.ofTable .standard)).Fails body ⟨.badNumber "1.2.3", .unknown⟩ after :=
    fails_expr.mpr (.inr ⟨rfl, after.deeper, rfl,
      .inr ⟨_, _, operand, fails_chain.mpr ⟨by decide, .inl unread⟩⟩⟩)
  obtain ⟨trace, failed⟩ : Fails parser state ⟨.badNumber "1.2.3", .unknown⟩ after :=
    fails_definition.mpr (.inr ⟨_, _, signature, inBody⟩)
  have callable : Callable (.ofTable .standard) state parser := .definition rfl
  obtain ⟨taken, _, upcoming, _, earlier, number, rfl, about, kind, _⟩ := callable.stopsAtFault failed
  refine ⟨rfl, ⟨trace, failed⟩, earlier, number, ?_, kind, about.quotes.symm⟩
  have whole : misspeltNumber ++ [.atEnd .unknown] =
      earlier ++ [number, .unplaced .closeParen ")"] ++ [.atEnd .unknown] := by
    rw [List.append_assoc] at upcoming
    rw [List.append_assoc]
    exact upcoming
  exact List.append_cancel_right whole

/-! ### What decides a call -/

/-- **A call is settled by the tokens that it takes and the one at which it stops.** From every state as
deep that has the same tokens up to there to come, whatever stands behind them, the same call gives the
same value or diagnostic and stops behind as many tokens. -/
theorem settledByLookahead {state' : ParseState} (callable : Callable grammar state parser)
    (depth : state'.depth = state.depth)
    (agrees : state'.upcoming.take (takenCount parser state + 1) =
      state.upcoming.take (takenCount parser state + 1)) :
    let count := takenCount parser state
    (parser state').result = (parser state).result ∧
      (parser state).after.stream.consumed = state.stream.consumed + count ∧
      (parser state).after.upcoming = state.upcoming.drop count ∧
      (parser state').after.stream.consumed = state'.stream.consumed + count ∧
      (parser state').after.upcoming = state'.upcoming.drop count := by
  intro count
  obtain ⟨taken, takes, settled⟩ := callable.looksNoFurther
  have length : count = taken.length := by
    show takenCount parser state = _
    rw [takenCount, takes.consumed_eq, Nat.add_sub_cancel_left]
  have split : state'.upcoming = taken ++ (parser state).after.current ::
      state'.upcoming.drop (count + 1) := by
    have known := takes.take_upcoming
    rw [← length, ← agrees] at known
    rw [List.append_cons, ← known, List.take_append_drop]
  obtain ⟨takes', result⟩ := settled state' _ depth split
  rw [length, takes.upcoming_eq, takes'.upcoming_eq, List.drop_left, List.drop_left]
  exact ⟨result, takes.consumed_eq, rfl, takes'.consumed_eq, rfl⟩

/-- The tokens of `(x`, which a comma does not close. -/
def openGroup : List Token :=
  [.unplaced .openParen "(", .unplaced .identifier "x", .unplaced .comma ","]

/-- The expression in `(x, y` fails at the comma, and so it does in `(x,;`. -/
theorem settledByLookahead_openGroup :
    let parser := Parser.expr (.ofTable .empty)
    let state := ParseState.ofTokens (openGroup ++ [.unplaced .identifier "y"])
    let state' := ParseState.ofTokens (openGroup ++ [.unplaced .semicolon ";"])
    takenCount parser state = 2 ∧ state'.upcoming.take 3 = state.upcoming.take 3 ∧
      (parser state').result = .error ⟨.notDue closeParenDue ",", .unknown⟩ ∧
      (parser state').after.stream.consumed = 2 := by
  intro parser state state'
  have result : (Parser.expr (.ofTable .empty)
      (.ofTokens (openGroup ++ [.unplaced .identifier "y"]))).result =
        .error ⟨.notDue closeParenDue ",", .unknown⟩ := by cbv
  have count : takenCount (Parser.expr (.ofTable .empty))
      (.ofTokens (openGroup ++ [.unplaced .identifier "y"])) = 2 := by cbv
  have callable : Callable (.ofTable .empty) state parser := .expr
  obtain ⟨same, _, _, consumed, _⟩ := @settledByLookahead _ _ _ state state' callable rfl
    (by rw [count]; rfl)
  exact ⟨count, rfl, same.trans result, by rw [consumed, count]; rfl⟩

end Callable

end Parser

end OpLang
