/-
**Replies that use up tokens.**

A reply is bounded by two numbers when fewer tokens than the first are to come after a success and
no more than the second after a failure. Recursive parsers reply with their bounds, and the bounds
of a sequence follow from those of its parts; so a parser that goes on after a success goes on with
fewer tokens, and ends. Each operation on bounded replies is the operation of the same name on
parsers (`reply_bind`, `reply_nested`).
-/

import OpLang.Parser

namespace OpLang

/-- Whether fewer than `passed` tokens are to come after a success, at most `failed` after a
failure. -/
def Reply.LeavesFewer {α : Type} (passed failed : Nat) : Reply α → Prop
  | .parsed _ after _ => after.remaining < passed
  | .failed _ after _ => after.remaining ≤ failed

/-- A reply within bounds on the tokens to come after it. -/
structure BoundedReply (α : Type) (passed failed : Nat) where
  reply : Reply α
  bounded : reply.LeavesFewer passed failed

namespace BoundedReply

variable {α β : Type} {passed failed passed' failed' : Nat}

/-! ### Bounds of composed replies -/

theorem leavesFewer_precededBy {reply : Reply α} {earlier : List Step}
    (bounded : reply.LeavesFewer passed failed) :
    (reply.precededBy earlier).LeavesFewer passed failed := by
  cases reply <;> exact bounded

theorem leavesFewer_closed {reply : Reply α} (bounded : reply.LeavesFewer passed failed) :
    reply.closed.LeavesFewer passed failed := by
  cases reply <;> exact bounded

theorem leavesFewer_mono {reply : Reply α} (bounded : reply.LeavesFewer passed failed)
    (more : passed ≤ passed') (further : failed ≤ failed') :
    reply.LeavesFewer passed' failed' := by
  cases reply with
  | parsed value after trace => exact Nat.lt_of_lt_of_le bounded more
  | failed diagnostic after trace => exact Nat.le_trans bounded further

/-- The bounds of a sequence: the second parser starts within the bounds of the first one's success.
-/
theorem leavesFewer_bind {first : Parser α} {next : α → Parser β} {state : ParseState}
    (bounded : (first state).LeavesFewer passed failed)
    (boundedNext : ∀ value after, after.remaining < passed →
      (next value after).LeavesFewer passed' failed')
    (further : failed ≤ failed') : ((first >>= next) state).LeavesFewer passed' failed' := by
  rw [Parser.bind_apply]
  cases reply : first state with
  | parsed value after trace =>
    rw [reply] at bounded
    exact leavesFewer_precededBy (boundedNext value after bounded)
  | failed diagnostic after trace =>
    rw [reply] at bounded
    exact Nat.le_trans bounded further

/-- Wrapping the value of a parser keeps its bounds. -/
theorem leavesFewer_wrap {first : Parser α} {wrap : α → β} {state : ParseState}
    (bounded : (first state).LeavesFewer passed failed) :
    ((first >>= fun value => pure (wrap value)) state).LeavesFewer passed failed :=
  leavesFewer_bind bounded (fun _ _ fewer => fewer) (Nat.le_refl _)

/-! ### Operations -/

/-- A value at a state with fewer than `passed` tokens to come. -/
def done (value : α) (after : ParseState) (fewer : after.remaining < passed) :
    BoundedReply α passed failed :=
  ⟨.parsed value after [], fewer⟩

/-- The same reply within wider bounds. -/
def widen (reply : BoundedReply α passed failed) (more : passed ≤ passed')
    (further : failed ≤ failed') : BoundedReply α passed' failed' :=
  ⟨reply.reply, leavesFewer_mono reply.bounded more further⟩

/-- The reply with earlier steps put before its own. -/
def precededBy (reply : BoundedReply α passed failed) (earlier : List Step) :
    BoundedReply α passed failed :=
  ⟨reply.reply.precededBy earlier, leavesFewer_precededBy reply.bounded⟩

/-- A reply and, after a success, the reply that the value and the state lead to. -/
def bind (first : BoundedReply α passed failed)
    (next : α → (after : ParseState) → after.remaining < passed → BoundedReply β passed' failed')
    (further : failed ≤ failed') : BoundedReply β passed' failed' :=
  match first with
  | ⟨.parsed value after trace, fewer⟩ => (next value after fewer).precededBy trace
  | ⟨.failed diagnostic after trace, bounded⟩ =>
    ⟨.failed diagnostic after trace, Nat.le_trans bounded further⟩

/-- The reply inside an expression opened for it. -/
def nested (grammar : Grammar) (state : ParseState)
    (inner : (within : ParseState) → within.remaining = state.remaining →
      BoundedReply α passed failed)
    (enough : state.remaining ≤ failed) : BoundedReply α passed failed :=
  if grammar.isFull state.depth then
    ⟨(Parser.failHere (.notDue Parser.tooDeep) state).precededBy [.descend state], enough⟩
  else
    let reply := inner state.deeper state.remaining_deeper
    ⟨reply.reply.closed.precededBy [.descend state],
      leavesFewer_precededBy (leavesFewer_closed reply.bounded)⟩

/-! ### The same operations on parsers -/

@[simp]
theorem reply_done (value : α) (after : ParseState) (fewer : after.remaining < passed) :
    (done value after fewer : BoundedReply α passed failed).reply = Parser.pure value after := rfl

@[simp]
theorem reply_widen (reply : BoundedReply α passed failed) (more : passed ≤ passed')
    (further : failed ≤ failed') : (reply.widen more further).reply = reply.reply := rfl

/-- A sequence of bounded replies is the sequence of parsers with these replies. -/
theorem reply_bind {first : BoundedReply α passed failed}
    {next : α → (after : ParseState) → after.remaining < passed → BoundedReply β passed' failed'}
    {further : failed ≤ failed'} {parser : Parser α} {following : α → Parser β} {state : ParseState}
    (same : first.reply = parser state)
    (sameNext : ∀ value after fewer, (next value after fewer).reply = following value after) :
    (first.bind next further).reply = (parser >>= following) state := by
  show (first.bind next further).reply = Parser.bind parser following state
  unfold Parser.bind
  rw [← same]
  obtain ⟨reply, bounded⟩ := first
  cases reply with
  | parsed value after trace =>
    exact congrArg (Reply.precededBy · trace) (sameNext value after bounded)
  | failed diagnostic after trace => rfl

/-- A bounded reply inside an opened expression is that of the nested parser. -/
theorem reply_nested {grammar : Grammar} {state : ParseState}
    {inner : (within : ParseState) → within.remaining = state.remaining →
      BoundedReply α passed failed}
    {enough : state.remaining ≤ failed} {parser : Parser α}
    (same : ∀ within equal, (inner within equal).reply = parser within) :
    (nested grammar state inner enough).reply = Parser.nested grammar parser state := by
  show _ = Parser.bind (Parser.descend grammar) _ state
  by_cases full : grammar.isFull state.depth = true
  · unfold nested Parser.bind Parser.descend
    rw [if_pos full, if_pos full]
    rfl
  · unfold nested Parser.bind Parser.descend
    rw [if_neg full, if_neg full]
    show (inner state.deeper state.remaining_deeper).reply.closed.precededBy _ =
      (parser state.deeper).closed.precededBy _
    rw [same]

end BoundedReply

end OpLang
