/-
**Two runs in step.**

A `Simulation` relates the states of two runs, with two grammars and two lists of tokens, so that
both runs take the same steps: their current tokens are alike, and stay so when both move on. What
is alike may still differ. The names in the second run may be renamed, the operators may have other
precedences as long as their order is the same, tokens may stand elsewhere, and where the first run
comes to an end the second one may come to a semicolon: no parser goes on at either.

* `simulation.Mirrors image parser parser' state state'`: from related states, both parsers succeed
  in related states, the second with the image of the first one's value, or both fail in related
  states, for the same cause at tokens that are alike (`Blames`).
* Parsers that are composed alike mirror each other if their parts do (`Mirrors.bind`,
  `Mirrors.nested` and the laws of the single operations).
-/

import OpLang.Proofs.Parser.Yields

namespace OpLang

/-! ### Diagnostics elsewhere -/

/-- The cause with another text quoted. -/
def Cause.requoted (cause : Cause) (text : String) : Cause :=
  match cause with
  | .unrecognised _ => .unrecognised text
  | .noExpression _ => .noExpression text
  | .notDue complaint _ => .notDue complaint text
  | .badNumber _ => .badNumber text
  | .badEntry _ => .badEntry text

/-- Whether a parser that fails for this cause stops before the token at fault. -/
def Cause.isAtCurrent : Cause → Bool
  | .noExpression _ => true
  | .notDue _ _ => true
  | _ => false

/-- The same diagnostic raised at a token: it quotes the token and stands where the token starts. -/
def Diagnostic.raisedAt (diagnostic : Diagnostic) (token : Token) : Diagnostic :=
  ⟨diagnostic.cause.requoted token.value, token.start⟩

theorem Diagnostic.raisedAt_raisedAt (diagnostic : Diagnostic) (token other : Token) :
    (diagnostic.raisedAt token).raisedAt other = diagnostic.raisedAt other := by
  obtain ⟨cause, position⟩ := diagnostic
  cases cause <;> rfl

theorem Diagnostic.isAtCurrent_raisedAt (diagnostic : Diagnostic) (token : Token) :
    (diagnostic.raisedAt token).cause.isAtCurrent = diagnostic.cause.isAtCurrent := by
  obtain ⟨cause, position⟩ := diagnostic
  cases cause <;> rfl

/-! ### Simulations -/

/-- Whether tokens of this kind stand inside items; those of the other kinds end them. -/
def Token.Kind.isInner : Token.Kind → Bool
  | .eof => false
  | .semicolon => false
  | _ => true

/-- A relation between the states of two runs that both runs keep. -/
structure Simulation (grammar grammar' : Grammar) where
  /-- How the names in the first run are called in the second. -/
  rename : String → String
  alike : Token → Token → Prop
  meets : ParseState → ParseState → Prop
  kind_eq_or_ends : ∀ {token token' : Token}, alike token token' →
    token.kind = token'.kind ∨ (token.kind = .eof ∧ token'.kind = .semicolon)
  name_eq : ∀ {token token' : Token}, alike token token' → token.kind = .identifier →
    token'.value = rename token.value
  number_eq : ∀ {token token' : Token}, alike token token' → token.kind = .number →
    token'.value = token.value
  operator_eq : ∀ {token token' : Token}, alike token token' → token.kind = .operator →
    token'.value = token.value
  loose_iff : ∀ {token token' : Token}, alike token token' →
    (grammar.bindingPower token < 0 ↔ grammar'.bindingPower token' < 0)
  looser_iff : ∀ {token token' other other' : Token}, alike token token' → alike other other' →
    (grammar.bindingPower token < grammar.bindingPower other ↔
      grammar'.bindingPower token' < grammar'.bindingPower other')
  isFull_eq : ∀ {state state' : ParseState}, meets state state' →
    grammar.isFull state.depth = grammar'.isFull state'.depth
  current : ∀ {state state' : ParseState}, meets state state' → alike state.current state'.current
  advance : ∀ {state state' : ParseState}, meets state state' → state.current.kind ≠ .eof →
    meets state.advance state'.advance
  deeper : ∀ {state state' : ParseState}, meets state state' → meets state.deeper state'.deeper
  shallower : ∀ {state state' : ParseState}, meets state state' →
    meets state.shallower state'.shallower

namespace Simulation

variable {grammar grammar' : Grammar} (simulation : Simulation grammar grammar')
variable {α β γ δ : Type} {state state' : ParseState}

/-- Tokens that are alike are of the same kind, unless they end what stands before them. -/
theorem kind_iff {token token' : Token} (alike : simulation.alike token token') {kind : Token.Kind}
    (inner : kind.isInner = true) : token.kind = kind ↔ token'.kind = kind := by
  rcases simulation.kind_eq_or_ends alike with same | ⟨ended, separated⟩
  · rw [same]
  · have noEnd : token.kind ≠ kind := by
      rw [ended]
      rintro rfl
      exact absurd inner (by decide)
    have noSeparator : token'.kind ≠ kind := by
      rw [separated]
      rintro rfl
      exact absurd inner (by decide)
    exact iff_of_false noEnd noSeparator

variable {simulation}

/-- Of the current tokens of related states, the second is of an inner kind if the first is. -/
theorem current_kind_of {kind : Token.Kind} (meets : simulation.meets state state')
    (due : state.current.kind = kind) (inner : kind.isInner = true) :
    state'.current.kind = kind :=
  (simulation.kind_iff (simulation.current meets) inner).mp due

theorem current_kind_ne_of {kind : Token.Kind} (meets : simulation.meets state state')
    (other : state.current.kind ≠ kind) (inner : kind.isInner = true) :
    state'.current.kind ≠ kind :=
  fun due => other ((simulation.kind_iff (simulation.current meets) inner).mpr due)

variable (simulation)

/-! ### Replies in step -/

/-- Whether two diagnostics, of parsers that stopped in the given states, have the same cause at
tokens that are alike: where the parsers stopped or, of a number, before that. -/
inductive Blames : Diagnostic → ParseState → Diagnostic → ParseState → Prop where
  | current {diagnostic : Diagnostic} {after after' : ParseState}
      (here : diagnostic.cause.isAtCurrent = true) :
      Blames (diagnostic.raisedAt after.current) after (diagnostic.raisedAt after'.current) after'
  | number {token token' : Token} {after after' : ParseState}
      (alike : simulation.alike token token') (kind : token.kind = .number) :
      Blames ⟨.badNumber token.value, token.start⟩ after ⟨.badNumber token'.value, token'.start⟩
        after'

/-- Whether two replies are both successes, in related states and with a value and its image, or both
failures in related states, for the same cause. -/
inductive Replies (image : α → β) : Reply α → Reply β → Prop where
  | parsed {value : α} {after after' : ParseState} {trace trace' : List Step}
      (meets : simulation.meets after after') :
      Replies image (.parsed value after trace) (.parsed (image value) after' trace')
  | failed {diagnostic diagnostic' : Diagnostic} {after after' : ParseState}
      {trace trace' : List Step} (blames : simulation.Blames diagnostic after diagnostic' after')
      (meets : simulation.meets after after') :
      Replies image (.failed diagnostic after trace) (.failed diagnostic' after' trace')

/-- Whether two parsers, run from two states, reply in step. -/
def Mirrors (image : α → β) (parser : Parser α) (parser' : Parser β)
    (state state' : ParseState) : Prop :=
  simulation.Replies image (parser state) (parser' state')

variable {simulation}

theorem Replies.precededBy {image : α → β} {reply : Reply α} {reply' : Reply β}
    (replies : simulation.Replies image reply reply') (earlier earlier' : List Step) :
    simulation.Replies image (reply.precededBy earlier) (reply'.precededBy earlier') := by
  cases replies with
  | parsed meets => exact .parsed meets
  | failed blames meets => exact .failed blames meets

theorem Replies.closed {image : α → β} {reply : Reply α} {reply' : Reply β}
    (replies : simulation.Replies image reply reply') :
    simulation.Replies image reply.closed reply'.closed := by
  cases replies with
  | parsed meets => exact .parsed (simulation.shallower meets)
  | @failed _ _ after after' _ _ blames meets =>
    refine .failed ?_ (simulation.shallower meets)
    cases blames with
    | current here => exact @Blames.current _ _ _ _ after.shallower after'.shallower here
    | number alike kind => exact .number alike kind

/-- Where the first of two parsers in step succeeds, so does the second. -/
theorem Mirrors.of_parsed {image : α → β} {parser : Parser α} {parser' : Parser β} {value : α}
    {after : ParseState} {trace : List Step}
    (mirrors : simulation.Mirrors image parser parser' state state')
    (reply : parser state = .parsed value after trace) :
    ∃ after' trace', parser' state' = .parsed (image value) after' trace' ∧
      simulation.meets after after' := by
  unfold Mirrors at mirrors
  rw [reply] at mirrors
  generalize parser' state' = reply' at mirrors ⊢
  cases mirrors with
  | parsed meets => exact ⟨_, _, rfl, meets⟩

/-- Where the first of two parsers in step fails, so does the second. -/
theorem Mirrors.of_failed {image : α → β} {parser : Parser α} {parser' : Parser β}
    {diagnostic : Diagnostic} {after : ParseState} {trace : List Step}
    (mirrors : simulation.Mirrors image parser parser' state state')
    (reply : parser state = .failed diagnostic after trace) :
    ∃ diagnostic' after' trace', parser' state' = .failed diagnostic' after' trace' ∧
      simulation.Blames diagnostic after diagnostic' after' ∧ simulation.meets after after' := by
  unfold Mirrors at mirrors
  rw [reply] at mirrors
  generalize parser' state' = reply' at mirrors ⊢
  cases mirrors with
  | failed blames meets => exact ⟨_, _, _, rfl, blames, meets⟩

/-! ### Parsers in step -/

theorem mirrors_pure {image : α → β} {value : α} {value' : β}
    (meets : simulation.meets state state') (same : value' = image value) :
    simulation.Mirrors image (pure value) (pure value') state state' := by
  rw [same]
  exact .parsed meets

/-- Failures at the current token mirror each other. -/
theorem mirrors_failHere {image : α → β} {cause : String → Cause}
    (meets : simulation.meets state state') (here : ∀ text, (cause text).isAtCurrent = true)
    (requoted : ∀ text other, (cause text).requoted other = cause other) :
    simulation.Mirrors image (Parser.failHere cause) (Parser.failHere cause) state state' := by
  have blames := @Blames.current _ _ simulation ⟨cause "", .unknown⟩ state state' (here "")
  simp only [Diagnostic.raisedAt, requoted] at blames
  exact .failed blames meets

theorem mirrors_notDue {image : α → β} {complaint : String}
    (meets : simulation.meets state state') :
    simulation.Mirrors image (Parser.failHere (.notDue complaint))
      (Parser.failHere (.notDue complaint)) state state' :=
  mirrors_failHere meets (fun _ => rfl) fun _ _ => rfl

/-- **Sequences** mirror each other if their first parts do and, after these, their second parts. -/
theorem Mirrors.bind {image : α → β} {image' : γ → δ} {first : Parser α} {first' : Parser β}
    {next : α → Parser γ} {next' : β → Parser δ}
    (onFirst : simulation.Mirrors image first first' state state')
    (onNext : ∀ value middle middle', first.Yields state value middle →
      simulation.meets middle middle' →
      simulation.Mirrors image' (next value) (next' (image value)) middle middle') :
    simulation.Mirrors image' (first >>= next) (first' >>= next') state state' := by
  unfold Mirrors
  rw [Parser.bind_apply, Parser.bind_apply]
  cases reply : first state with
  | parsed value middle trace =>
    obtain ⟨middle', trace', reply', meets⟩ := onFirst.of_parsed reply
    rw [reply']
    exact (onNext value middle middle' ⟨trace, reply⟩ meets).precededBy trace trace'
  | failed diagnostic middle trace =>
    obtain ⟨diagnostic', middle', trace', reply', blames, meets⟩ := onFirst.of_failed reply
    rw [reply']
    exact .failed blames meets

theorem mirrors_current_bind {image : α → β} {next : Token → Parser α} {next' : Token → Parser β} :
    simulation.Mirrors image (Parser.current >>= next) (Parser.current >>= next') state state' ↔
      simulation.Mirrors image (next state.current) (next' state'.current) state state' := by
  unfold Mirrors
  rw [Parser.current_bind, Parser.current_bind]

theorem mirrors_advance_bind {image : α → β} {next : Token → Parser α} {next' : Token → Parser β} :
    simulation.Mirrors image (Parser.advance >>= next) (Parser.advance >>= next') state state' ↔
      simulation.Mirrors image (next state.current) (next' state'.current) state.advance
        state'.advance := by
  unfold Mirrors
  rw [Parser.advance_bind, Parser.advance_bind]

theorem Mirrors.record_bind {image : α → β} {step step' : Step} {next : Unit → Parser α}
    {next' : Unit → Parser β}
    (onNext : simulation.Mirrors image (next ()) (next' ()) state state') :
    simulation.Mirrors image (Parser.record step >>= next) (Parser.record step' >>= next') state
      state' := by
  unfold Mirrors
  rw [Parser.record_bind, Parser.record_bind]
  exact onNext.precededBy _ _

/-- An expected token that is no end is expected in both runs alike. -/
theorem mirrors_expect_bind {image : α → β} {kind : Token.Kind} {complaint : String}
    {next : Token → Parser α} {next' : Token → Parser β} (meets : simulation.meets state state')
    (inner : kind.isInner = true)
    (onNext : state.current.kind = kind → simulation.meets state.advance state'.advance →
      simulation.Mirrors image (next state.current) (next' state'.current) state.advance
        state'.advance) :
    simulation.Mirrors image (Parser.expect kind complaint >>= next)
      (Parser.expect kind complaint >>= next') state state' := by
  unfold Mirrors
  by_cases due : state.current.kind = kind
  · have due' := current_kind_of meets due inner
    have noEnd : state.current.kind ≠ .eof := by
      rw [due]
      rintro rfl
      exact absurd inner (by decide)
    rw [Parser.expect_bind_of_kind due, Parser.expect_bind_of_kind due']
    exact onNext due (simulation.advance meets noEnd)
  · have other' := current_kind_ne_of meets due inner
    rw [Parser.expect_bind_of_ne due, Parser.expect_bind_of_ne other']
    exact mirrors_notDue meets

/-- **Nested parsers** find room in both runs or in neither. -/
theorem Mirrors.nested {image : α → β} {inner : Parser α} {inner' : Parser β}
    (meets : simulation.meets state state')
    (onInner : simulation.Mirrors image inner inner' state.deeper state'.deeper) :
    simulation.Mirrors image (Parser.nested grammar inner) (Parser.nested grammar' inner') state
      state' := by
  unfold Mirrors
  rw [Parser.nested_apply, Parser.nested_apply, ← simulation.isFull_eq meets]
  by_cases full : grammar.isFull state.depth = true
  · rw [if_pos full, if_pos full]
    exact (mirrors_notDue meets).precededBy _ _
  · rw [if_neg full, if_neg full]
    exact onInner.closed.precededBy _ _

end Simulation

end OpLang
