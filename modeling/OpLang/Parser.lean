/-
**Parsers.**

A parser runs from a state, a token stream with the number of expressions open in it, and replies
with a value or a diagnostic, with the state in which it stopped, and with a trace of the steps it
took. The state after a failure counts too: parsing resumes there. Parsers are composed in sequence,
and a sequence stops at its first failure.

A parser reads the current token (`current`), takes it (`advance`, `expect`) or fails at it
(`failHere`, `failAt`), and records steps (`record`). `nested` opens an expression for the time of a
parser, as far as the grammar lets expressions nest, and closes it whatever the reply.
-/

import OpLang.Diagnostic
import OpLang.PrecedenceTable
import OpLang.Token.Stream

namespace OpLang

/-- What is to be parsed: the operators with their precedences, and how many expressions may be open
at once, if there is a limit. -/
structure Grammar where
  table : PrecedenceTable
  nestingLimit : Option Nat
deriving DecidableEq

namespace Grammar

/-- The grammar with the given operators and the usual limit of nesting. -/
def ofTable (table : PrecedenceTable) : Grammar := ⟨table, some 256⟩

/-- Whether no further expression may be opened when `depth` are open. -/
def isFull (grammar : Grammar) (depth : Nat) : Bool :=
  grammar.nestingLimit.any (· ≤ depth)

/-- The binding power of a token: only an operator token of the table has one. -/
def bindingPower (grammar : Grammar) (token : Token) : Int :=
  if token.kind = .operator then grammar.table.bindingPower token.value
  else PrecedenceTable.noOperator

end Grammar

/-- Where a parser stands: the tokens to come, and the number of expressions open. -/
structure ParseState where
  stream : TokenStream
  depth : Nat
deriving DecidableEq

namespace ParseState

/-- The start of a list of tokens, with no expression open. -/
def ofTokens (tokens : List Token) : ParseState := ⟨TokenStream.ofList tokens, 0⟩

/-- The token to be read next. -/
def current (state : ParseState) : Token := state.stream.current

/-- The number of tokens to come before the last one. -/
def remaining (state : ParseState) : Nat := state.stream.remaining

/-- The state after the current token. -/
def advance (state : ParseState) : ParseState :=
  { state with stream := state.stream.advance }

/-- The state with one more expression open. -/
def deeper (state : ParseState) : ParseState :=
  { state with depth := state.depth + 1 }

/-- The state with one expression closed. -/
def shallower (state : ParseState) : ParseState :=
  { state with depth := state.depth - 1 }

@[simp]
theorem remaining_advance (state : ParseState) : state.advance.remaining = state.remaining - 1 :=
  state.stream.remaining_advance

@[simp]
theorem remaining_deeper (state : ParseState) : state.deeper.remaining = state.remaining := rfl

@[simp]
theorem remaining_shallower (state : ParseState) :
    state.shallower.remaining = state.remaining := rfl

theorem remaining_advance_le (state : ParseState) : state.advance.remaining ≤ state.remaining := by
  rw [remaining_advance]
  exact Nat.sub_le _ _

/-- Where there is more to come than the last token, advancing leaves less to come. -/
theorem remaining_advance_lt {state : ParseState} (more : 0 < state.remaining) :
    state.advance.remaining < state.remaining := by
  rw [remaining_advance]
  exact Nat.sub_lt more Nat.one_pos

/-- Where the current token is not an end, there is more to come than the last token. -/
theorem remaining_pos {state : ParseState} (more : state.current.kind ≠ .eof) :
    0 < state.remaining :=
  TokenStream.remaining_pos more

theorem remaining_pos_of_kind {state : ParseState} {kind : Token.Kind}
    (due : state.current.kind = kind) (inner : kind ≠ .eof) : 0 < state.remaining :=
  remaining_pos (due ▸ inner)

end ParseState

/-- A step of a parser that its trace records. -/
inductive Step where
  /-- An expression is opened in this state, or refused there. -/
  | descend (state : ParseState)
  /-- Two operands are joined by an operator of this precedence. -/
  | fold (operator : String) (precedence : Int)
deriving DecidableEq

/-- What a parser replies: a value or a diagnostic, where it stopped, and the steps it took. -/
inductive Reply (α : Type) where
  | parsed (value : α) (after : ParseState) (trace : List Step)
  | failed (diagnostic : Diagnostic) (after : ParseState) (trace : List Step)

namespace Reply

variable {α : Type}

/-- The state in which a parser stopped. -/
def after : Reply α → ParseState
  | .parsed _ after _ => after
  | .failed _ after _ => after

/-- The steps that a parser took. -/
def trace : Reply α → List Step
  | .parsed _ _ trace => trace
  | .failed _ _ trace => trace

/-- The value or the diagnostic. -/
def result : Reply α → Except Diagnostic α
  | .parsed value _ _ => .ok value
  | .failed diagnostic _ _ => .error diagnostic

/-- The reply with earlier steps put before its own. -/
def precededBy (reply : Reply α) (earlier : List Step) : Reply α :=
  match reply with
  | .parsed value after trace => .parsed value after (earlier ++ trace)
  | .failed diagnostic after trace => .failed diagnostic after (earlier ++ trace)

/-- The reply with one expression closed where it stopped. -/
def closed : Reply α → Reply α
  | .parsed value after trace => .parsed value after.shallower trace
  | .failed diagnostic after trace => .failed diagnostic after.shallower trace

@[simp]
theorem precededBy_nil (reply : Reply α) : reply.precededBy [] = reply := by
  cases reply <;> rfl

@[simp]
theorem precededBy_precededBy (reply : Reply α) (earlier later : List Step) :
    (reply.precededBy later).precededBy earlier = reply.precededBy (earlier ++ later) := by
  cases reply <;> simp [precededBy]

end Reply

/-- A parser of values of type `α`. -/
def Parser (α : Type) := ParseState → Reply α

namespace Parser

variable {α β γ : Type}

/-! ### Sequences -/

/-- The parser that replies with a value and takes nothing. -/
protected def pure (value : α) : Parser α :=
  fun state => .parsed value state []

/-- The parser `first` and, unless it fails, the parser that its value leads to. -/
protected def bind (first : Parser α) (next : α → Parser β) : Parser β :=
  fun state =>
    match first state with
    | .parsed value after trace => (next value after).precededBy trace
    | .failed diagnostic after trace => .failed diagnostic after trace

instance : Monad Parser where
  pure := Parser.pure
  bind := Parser.bind

theorem pure_apply (value : α) (state : ParseState) :
    (pure value : Parser α) state = .parsed value state [] := rfl

theorem bind_apply (first : Parser α) (next : α → Parser β) (state : ParseState) :
    (first >>= next) state =
      match first state with
      | .parsed value after trace => (next value after).precededBy trace
      | .failed diagnostic after trace => .failed diagnostic after trace := rfl

theorem pure_bind (value : α) (next : α → Parser β) : pure value >>= next = next value := by
  funext state
  exact Reply.precededBy_nil _

theorem bind_pure (first : Parser α) : first >>= pure = first := by
  funext state
  show Parser.bind first Parser.pure state = first state
  unfold Parser.bind Parser.pure
  split <;> simp_all [Reply.precededBy]

theorem bind_assoc (first : Parser α) (second : α → Parser β) (third : β → Parser γ) :
    first >>= second >>= third = first >>= fun value => second value >>= third := by
  funext state
  show Parser.bind (Parser.bind first second) third state =
    Parser.bind first (fun value => Parser.bind (second value) third) state
  unfold Parser.bind
  cases first state with
  | failed diagnostic after trace => rfl
  | parsed value after trace =>
    dsimp only
    cases second value after with
    | failed diagnostic after' trace' => rfl
    | parsed value' after' trace' => exact (Reply.precededBy_precededBy _ trace trace').symm

/-! ### Reading tokens -/

/-- The current token, which stays. -/
def current : Parser Token :=
  fun state => .parsed state.current state []

/-- The current token, which is taken. -/
def advance : Parser Token :=
  fun state => .parsed state.current state.advance []

theorem current_bind (next : Token → Parser β) (state : ParseState) :
    (current >>= next) state = next state.current state :=
  Reply.precededBy_nil _

theorem advance_bind (next : Token → Parser β) (state : ParseState) :
    (advance >>= next) state = next state.current state.advance :=
  Reply.precededBy_nil _

/-- Failure at a position, for a cause. -/
def failAt (position : Position) (cause : Cause) : Parser α :=
  fun state => .failed ⟨cause, position⟩ state []

/-- Failure at the current token, for a cause that quotes it. -/
def failHere (cause : String → Cause) : Parser α :=
  fun state => .failed ⟨cause state.current.value, state.current.start⟩ state []

/-- The current token, which is taken if it is of the given kind; else failure at it. -/
def expect (kind : Token.Kind) (complaint : String) : Parser Token :=
  fun state =>
    if state.current.kind = kind then advance state
    else failHere (.notDue complaint) state

/-- A step put on record. -/
def record (step : Step) : Parser Unit :=
  fun state => .parsed () state [step]

/-- An expected token is taken. -/
theorem expect_bind_of_kind {kind : Token.Kind} {complaint : String} {next : Token → Parser β}
    {state : ParseState} (due : state.current.kind = kind) :
    (expect kind complaint >>= next) state = next state.current state.advance := by
  rw [bind_apply, expect, if_pos due]
  exact Reply.precededBy_nil _

/-- At any other token expecting fails. -/
theorem expect_bind_of_ne {kind : Token.Kind} {complaint : String} {next : Token → Parser β}
    {state : ParseState} (other : state.current.kind ≠ kind) :
    (expect kind complaint >>= next) state = failHere (.notDue complaint) state := by
  rw [bind_apply, expect, if_neg other]
  rfl

theorem record_bind (step : Step) (next : Unit → Parser β) (state : ParseState) :
    (record step >>= next) state = (next () state).precededBy [step] := rfl

/-! ### Nesting -/

/-- The complaint at the token where an expression would be opened beyond the limit. -/
def tooDeep : String := "expression nested too deeply"

/-- One more expression opened, or failure at the current token where the grammar has no room. -/
def descend (grammar : Grammar) : Parser Unit :=
  fun state =>
    if grammar.isFull state.depth then
      (failHere (.notDue tooDeep) state).precededBy [.descend state]
    else .parsed () state.deeper [.descend state]

/-- A parser inside an expression opened for it, which is closed again after success and failure. -/
def nested (grammar : Grammar) (inner : Parser α) : Parser α :=
  descend grammar >>= fun _ => fun state => (inner state).closed

end Parser

end OpLang
