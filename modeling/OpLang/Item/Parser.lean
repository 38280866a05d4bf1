/-
**Parsing prototypes and items.**

A prototype is a name and, in parentheses, parameter names between commas. A definition is its
keyword, a prototype and an expression; an external declaration is its keyword and a prototype;
everything else is an expression on its own. An item uses up a token or fails, also at the end of
the tokens (`item_leavesFewer`).
-/

import OpLang.Expr.Parser
import OpLang.Item

namespace OpLang.Parser

/-! ### Complaints -/

/-- The complaint where the name of a function is due. -/
def functionNameDue : String := "expected function name in prototype"

/-- The complaint where the parameters should open. -/
def openParenDue : String := "expected '(' in prototype"

/-- The complaint where the name of a parameter is due. -/
def parameterNameDue : String := "expected parameter name in prototype"

/-- The complaint where the list of parameters neither ends nor goes on. -/
def parameterSeparatorDue : String := "expected ')' or ',' in prototype"

/-! ### Prototypes -/

/-- One parameter or more, and the closing parenthesis. -/
def boundedParameters (state : ParseState) :
    BoundedReply (List String) state.remaining state.remaining :=
  if name : state.current.kind = .identifier then
    have more : 0 < state.remaining := ParseState.remaining_pos (by simp [name])
    if state.advance.current.kind = .closeParen then
      .done [state.current.value] state.advance.advance (by simp; omega)
    else if state.advance.current.kind = .comma then
      (boundedParameters state.advance.advance).bind
        (fun others after fewer =>
          .done (state.current.value :: others) after (by simp at fewer; omega))
        (by simp; omega)
    else ⟨failHere (.notDue parameterSeparatorDue) state.advance, by
      show state.advance.remaining ≤ state.remaining
      simp⟩
  else ⟨failHere (.notDue parameterNameDue) state, Nat.le_refl _⟩
termination_by state.remaining
decreasing_by simp; omega

/-- The parameters of a prototype, at least one, and the parenthesis that closes them. -/
def parameters : Parser (List String) :=
  fun state => (boundedParameters state).reply

theorem parameters_eq :
    parameters = (do
      let name ← expect .identifier parameterNameDue
      let next ← current
      if next.kind = .closeParen then
        let _ ← advance
        pure [name.value]
      else if next.kind = .comma then
        let _ ← advance
        let others ← parameters
        pure (name.value :: others)
      else failHere (.notDue parameterSeparatorDue)) := by
  funext state
  show (boundedParameters state).reply = _
  rw [boundedParameters]
  split
  · rename_i name
    dsimp only
    rw [expect_bind_of_kind name, current_bind]
    split
    · rw [advance_bind]
      rfl
    · split
      · rw [advance_bind]
        exact BoundedReply.reply_bind rfl fun others after fewer => rfl
      · rfl
  · rename_i other
    rw [expect_bind_of_ne other]

/-- **A prototype:** a name and its parameters in parentheses. -/
def prototype : Parser Prototype := do
  let name ← expect .identifier functionNameDue
  let _ ← expect .openParen openParenDue
  let next ← current
  if next.kind = .closeParen then
    let _ ← advance
    pure ⟨name.value, []⟩
  else
    let parameters ← parameters
    pure ⟨name.value, parameters⟩

/-! ### Items -/

/-- A definition. The current token is taken for its keyword, whatever it is. -/
def definition (grammar : Grammar) : Parser Function := do
  let _ ← advance
  let prototype ← prototype
  let body ← expr grammar
  pure ⟨prototype, body⟩

/-- An external declaration. The current token is taken for its keyword, whatever it is. -/
def external : Parser Prototype := do
  let _ ← advance
  prototype

/-- An expression on its own, as the body of the anonymous function. -/
def anonymousFunction (grammar : Grammar) : Parser Function := do
  let body ← expr grammar
  pure ⟨.anonymous, body⟩

/-- **An item,** told by its first token. -/
def item (grammar : Grammar) : Parser Item := do
  let token ← current
  match token.kind with
  | .defKeyword => do
    let function ← definition grammar
    pure (.definition function)
  | .externKeyword => do
    let prototype ← external
    pure (.external prototype)
  | _ => do
    let function ← anonymousFunction grammar
    pure (.expression function)

/-! ### Items use up tokens -/

theorem expect_leavesFewer {kind : Token.Kind} {complaint : String} {state : ParseState}
    (inner : kind ≠ .eof) :
    (expect kind complaint state).LeavesFewer state.remaining state.remaining := by
  unfold expect
  split
  · rename_i due
    have more : 0 < state.remaining := ParseState.remaining_pos (by rw [due]; exact inner)
    show state.advance.remaining < state.remaining
    simp
    omega
  · exact Nat.le_refl state.remaining

theorem prototype_leavesFewer (state : ParseState) :
    (prototype state).LeavesFewer state.remaining state.remaining := by
  refine BoundedReply.leavesFewer_bind (expect_leavesFewer nofun) ?_ (Nat.le_refl _)
  intro name after fewer
  refine BoundedReply.leavesFewer_bind (expect_leavesFewer nofun) ?_ (Nat.le_of_lt fewer)
  intro _ inside fewer'
  rw [current_bind]
  split
  · rw [advance_bind]
    show inside.advance.remaining < state.remaining
    simp
    omega
  · refine BoundedReply.leavesFewer_bind (boundedParameters inside).bounded ?_ (by omega)
    intro parameters last fewer''
    show last.remaining < state.remaining
    omega

theorem definition_leavesFewer (grammar : Grammar) (state : ParseState) :
    (definition grammar state).LeavesFewer state.remaining state.remaining := by
  rw [definition, advance_bind]
  refine BoundedReply.leavesFewer_bind (prototype_leavesFewer _) ?_ (by simp)
  intro prototype after fewer
  simp only [ParseState.remaining_advance] at fewer
  refine BoundedReply.leavesFewer_bind (expr_leavesFewer _ _) ?_ (by omega)
  intro body last fewer'
  show last.remaining < state.remaining
  omega

theorem external_leavesFewer (state : ParseState) :
    (external state).LeavesFewer state.remaining state.remaining := by
  rw [external, advance_bind]
  exact BoundedReply.leavesFewer_mono (prototype_leavesFewer _) (by simp) (by simp)

theorem anonymousFunction_leavesFewer (grammar : Grammar) (state : ParseState) :
    (anonymousFunction grammar state).LeavesFewer state.remaining state.remaining :=
  BoundedReply.leavesFewer_wrap (expr_leavesFewer _ _)

/-- **An item uses up a token,** or fails without going back. -/
theorem item_leavesFewer (grammar : Grammar) (state : ParseState) :
    (item grammar state).LeavesFewer state.remaining state.remaining := by
  rw [item, current_bind]
  cases state.current.kind with
  | defKeyword => exact BoundedReply.leavesFewer_wrap (definition_leavesFewer _ _)
  | externKeyword => exact BoundedReply.leavesFewer_wrap (external_leavesFewer _)
  | _ => exact BoundedReply.leavesFewer_wrap (anonymousFunction_leavesFewer _ _)

end OpLang.Parser
