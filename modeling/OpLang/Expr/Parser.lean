/-
**Parsing expressions.**

An expression is a chain of operands joined by operators. The chain is folded by precedence
climbing: `chain minimum left` joins operands to `left` as long as the operator at hand binds at
least as tightly as `minimum`, and where the operator after an operand binds tighter than the one
before it, that operand is first extended by a chain of its own, one above the operator before it.
So operators of equal precedence group to the left. An operand is a number, a variable, a call or an
expression in parentheses; expressions open inside one another count against the grammar's limit of
nesting.

The parsers call each other, and each call goes on with fewer tokens or leads to one that does;
their bounded forms (`boundedExpr` and the others) say so. What each parser does is stated without
bounds (`expr_eq`, `operand_eq`, `chain_eq` and the others).
-/

import OpLang.Expr
import OpLang.Number.Numeral
import OpLang.Parser.Bounded

namespace OpLang.Parser

/-! ### Complaints -/

/-- The complaint where a closing parenthesis is due. -/
def closeParenDue : String := "expected ')'"

/-- The complaint where the list of arguments neither ends nor goes on. -/
def argumentSeparatorDue : String := "expected ')' or ',' in argument list"

/-! ### Numbers -/

/-- A number from the spelling of the current token, which is taken in any case. -/
def number : Parser Expr := do
  let token ← advance
  match Numeral.read? token.value.toList with
  | some value => pure (.number value)
  | none => failAt token.start (.badNumber token.value)

theorem number_leavesFewer {state : ParseState} (more : 0 < state.remaining) :
    (number state).LeavesFewer state.remaining state.remaining := by
  rw [number, bind_apply, advance]
  apply BoundedReply.leavesFewer_precededBy
  cases Numeral.read? state.current.value.toList with
  | some value =>
    show state.advance.remaining < state.remaining
    simp
    omega
  | none =>
    show state.advance.remaining ≤ state.remaining
    simp

/-! ### Parsers with bounds -/

mutual

/-- An expression, opened and closed: an operand and the chain after it. -/
def boundedExpr (grammar : Grammar) (state : ParseState) :
    BoundedReply Expr state.remaining state.remaining :=
  BoundedReply.nested grammar state
    (fun within equal =>
      (boundedOperand grammar within).bind
        (fun left after fewer =>
          (boundedChain grammar 0 left after).widen (by omega) (by omega))
        (by omega))
    (Nat.le_refl _)
termination_by 4 * state.remaining + 2
decreasing_by all_goals omega

/-- An operand, told by its first token. -/
def boundedOperand (grammar : Grammar) (state : ParseState) :
    BoundedReply Expr state.remaining state.remaining :=
  match kind : state.current.kind with
  | .number =>
    ⟨number state, number_leavesFewer (ParseState.remaining_pos_of_kind kind (by decide))⟩
  | .identifier =>
    have fewer : state.advance.remaining < state.remaining :=
      ParseState.remaining_advance_lt (ParseState.remaining_pos_of_kind kind (by decide))
    (boundedReferenceRest grammar state.current.value state.advance).widen fewer
      (Nat.le_of_lt fewer)
  | .openParen =>
    have fewer : state.advance.remaining < state.remaining :=
      ParseState.remaining_advance_lt (ParseState.remaining_pos_of_kind kind (by decide))
    (boundedGroupRest grammar state.advance).widen (Nat.le_of_lt fewer) (Nat.le_of_lt fewer)
  | _ => ⟨failHere .noExpression state, Nat.le_refl _⟩
termination_by 4 * state.remaining + 1
decreasing_by all_goals omega

/-- The rest of a group after its opening parenthesis. -/
def boundedGroupRest (grammar : Grammar) (state : ParseState) :
    BoundedReply Expr state.remaining state.remaining :=
  (boundedExpr grammar state).bind
    (fun inner after fewer =>
      if after.current.kind = .closeParen then
        .done inner after.advance
          (Nat.lt_of_le_of_lt (ParseState.remaining_advance_le after) fewer)
      else ⟨failHere (.notDue closeParenDue) after, Nat.le_of_lt fewer⟩)
    (Nat.le_refl _)
termination_by 4 * state.remaining + 3
decreasing_by all_goals omega

/-- The rest of a variable or a call after its name. -/
def boundedReferenceRest (grammar : Grammar) (name : String) (state : ParseState) :
    BoundedReply Expr (state.remaining + 1) state.remaining :=
  if opens : state.current.kind = .openParen then
    have fewer : state.advance.remaining < state.remaining :=
      ParseState.remaining_advance_lt (ParseState.remaining_pos_of_kind opens (by decide))
    if state.advance.current.kind = .closeParen then
      .done (.call name []) state.advance.advance
        (Nat.lt_succ_of_lt
          (Nat.lt_of_le_of_lt (ParseState.remaining_advance_le state.advance) fewer))
    else
      (boundedArguments grammar state.advance).bind
        (fun arguments after fewer' =>
          .done (.call name arguments) after (Nat.lt_succ_of_lt (Nat.lt_trans fewer' fewer)))
        (Nat.le_of_lt fewer)
  else .done (.reference name) state (Nat.lt_succ_self _)
termination_by 4 * state.remaining + 3
decreasing_by all_goals omega

/-- One argument or more, and the closing parenthesis. -/
def boundedArguments (grammar : Grammar) (state : ParseState) :
    BoundedReply (List Expr) state.remaining state.remaining :=
  (boundedExpr grammar state).bind
    (fun argument after fewer =>
      if after.current.kind = .closeParen then
        .done [argument] after.advance
          (Nat.lt_of_le_of_lt (ParseState.remaining_advance_le after) fewer)
      else if after.current.kind = .comma then
        have within : after.advance.remaining < state.remaining :=
          Nat.lt_of_le_of_lt (ParseState.remaining_advance_le after) fewer
        (boundedArguments grammar after.advance).bind
          (fun others last fewer' => .done (argument :: others) last (Nat.lt_trans fewer' within))
          (Nat.le_of_lt within)
      else ⟨failHere (.notDue argumentSeparatorDue) after, Nat.le_of_lt fewer⟩)
    (Nat.le_refl _)
termination_by 4 * state.remaining + 3
decreasing_by all_goals omega

/-- The chain after `left`, as far as its operators bind at least as tightly as `minimum`. -/
def boundedChain (grammar : Grammar) (minimum : Int) (left : Expr) (state : ParseState) :
    BoundedReply Expr (state.remaining + 1) state.remaining :=
  let power := grammar.bindingPower state.current
  if power < minimum then .done left state (Nat.lt_succ_self _)
  else
    have within : state.advance.remaining ≤ state.remaining := ParseState.remaining_advance_le state
    (boundedOperand grammar state.advance).bind
      (fun operand after fewer =>
        have fewer : after.remaining < state.remaining := Nat.lt_of_lt_of_le fewer within
        let right : BoundedReply Expr (after.remaining + 1) after.remaining :=
          if power < grammar.bindingPower after.current then
            boundedChain grammar (power + 1) operand after
          else .done operand after (Nat.lt_succ_self _)
        right.bind
          (fun right last fewer' =>
            ((boundedChain grammar minimum (.binary state.current.value left right) last).precededBy
              [.fold state.current.value power]).widen
                (by omega) (by omega))
          (Nat.le_of_lt fewer))
      within
termination_by 4 * state.remaining + 2
decreasing_by all_goals omega

end

/-! ### Parsers -/

/-- **An expression:** an operand and the longest chain after it, inside an opened expression. -/
def expr (grammar : Grammar) : Parser Expr :=
  fun state => (boundedExpr grammar state).reply

/-- **An operand:** a number, a variable, a call or a group, told by its first token. -/
def operand (grammar : Grammar) : Parser Expr :=
  fun state => (boundedOperand grammar state).reply

/-- What follows the opening parenthesis of a group. -/
def groupRest (grammar : Grammar) : Parser Expr :=
  fun state => (boundedGroupRest grammar state).reply

/-- What follows a name: the arguments of a call, if a parenthesis opens. -/
def referenceRest (grammar : Grammar) (name : String) : Parser Expr :=
  fun state => (boundedReferenceRest grammar name state).reply

/-- The arguments of a call, at least one, and the parenthesis that closes them. -/
def arguments (grammar : Grammar) : Parser (List Expr) :=
  fun state => (boundedArguments grammar state).reply

/-- **A chain:** `left` with the operands after it whose operators bind as tightly as `minimum`. -/
def chain (grammar : Grammar) (minimum : Int) (left : Expr) : Parser Expr :=
  fun state => (boundedChain grammar minimum left state).reply

/-- A group. The current token is taken for its opening parenthesis, whatever it is. -/
def group (grammar : Grammar) : Parser Expr := do
  let _ ← advance
  groupRest grammar

/-- A variable or a call. The current token is taken for its name, whatever it is. -/
def reference (grammar : Grammar) : Parser Expr := do
  let token ← advance
  referenceRest grammar token.value

/-- The operand after an operator of binding power `power`: extended by a chain of its own where the
operator behind it binds tighter. -/
def extended (grammar : Grammar) (power : Int) (operand : Expr) : Parser Expr := do
  let next ← current
  if power < grammar.bindingPower next then chain grammar (power + 1) operand
  else pure operand

theorem expr_leavesFewer (grammar : Grammar) (state : ParseState) :
    (expr grammar state).LeavesFewer state.remaining state.remaining :=
  (boundedExpr grammar state).bounded

/-! ### What the parsers do -/

theorem expr_eq (grammar : Grammar) :
    expr grammar = nested grammar (operand grammar >>= chain grammar 0) := by
  funext state
  show (boundedExpr grammar state).reply = _
  rw [boundedExpr]
  exact BoundedReply.reply_nested fun within equal =>
    BoundedReply.reply_bind rfl fun left after fewer => rfl

theorem operand_eq (grammar : Grammar) :
    operand grammar = (do
      let token ← current
      match token.kind with
      | .number => number
      | .identifier => reference grammar
      | .openParen => group grammar
      | _ => failHere .noExpression) := by
  funext state
  show (boundedOperand grammar state).reply = _
  rw [boundedOperand, current_bind]
  split <;> rename_i kind <;> simp [kind, reference, group, advance_bind] <;> rfl

theorem groupRest_eq (grammar : Grammar) :
    groupRest grammar = (do
      let inner ← expr grammar
      let _ ← expect .closeParen closeParenDue
      pure inner) := by
  funext state
  show (boundedGroupRest grammar state).reply = _
  rw [boundedGroupRest]
  refine BoundedReply.reply_bind rfl fun inner after fewer => ?_
  split
  · rename_i closes
    rw [expect_bind_of_kind closes]
    rfl
  · rename_i open'
    rw [expect_bind_of_ne open']

theorem referenceRest_eq (grammar : Grammar) (name : String) :
    referenceRest grammar name = (do
      let token ← current
      if token.kind = .openParen then
        let _ ← advance
        let first ← current
        if first.kind = .closeParen then
          let _ ← advance
          pure (.call name [])
        else
          let arguments ← arguments grammar
          pure (.call name arguments)
      else pure (.reference name)) := by
  funext state
  show (boundedReferenceRest grammar name state).reply = _
  rw [boundedReferenceRest, current_bind]
  split
  · dsimp only
    rw [advance_bind, current_bind]
    split
    · rw [advance_bind]
      rfl
    · exact BoundedReply.reply_bind rfl fun arguments after fewer => rfl
  · rfl

theorem arguments_eq (grammar : Grammar) :
    arguments grammar = (do
      let argument ← expr grammar
      let token ← current
      if token.kind = .closeParen then
        let _ ← advance
        pure [argument]
      else if token.kind = .comma then
        let _ ← advance
        let others ← arguments grammar
        pure (argument :: others)
      else failHere (.notDue argumentSeparatorDue)) := by
  funext state
  show (boundedArguments grammar state).reply = _
  rw [boundedArguments]
  refine BoundedReply.reply_bind rfl fun argument after fewer => ?_
  rw [current_bind]
  split
  · rw [advance_bind]
    rfl
  · split
    · rw [advance_bind]
      exact BoundedReply.reply_bind rfl fun others last fewer' => rfl
    · rfl

theorem chain_eq (grammar : Grammar) (minimum : Int) (left : Expr) :
    chain grammar minimum left = (do
      let token ← current
      let power := grammar.bindingPower token
      if power < minimum then pure left
      else
        let _ ← advance
        let operand ← operand grammar
        let right ← extended grammar power operand
        record (.fold token.value power)
        chain grammar minimum (.binary token.value left right)) := by
  funext state
  show (boundedChain grammar minimum left state).reply = _
  rw [boundedChain, current_bind]
  dsimp only
  split
  · rfl
  · rw [advance_bind]
    refine BoundedReply.reply_bind rfl fun operand after fewer => ?_
    refine BoundedReply.reply_bind ?_ fun right last fewer' => rfl
    rw [extended, current_bind]
    split <;> rfl

end OpLang.Parser
