/-
**Prototypes have one form, and the first token that leaves it is at fault.**

The form is written by `RendersPrototype`: a name and, in parentheses, names between commas. A token
leaves a form (`LeavesForm`) if the tokens before it can be completed to that form, and together with it
they cannot. What was due in its place is told by the tokens before it (`DueInPrototype`).

* `LeavesForm.unique`: there is at most one such token in a list.
* `prototype_leavesForm`: where `prototype` fails, the cursor has come to the token that leaves the form,
  and the complaint names what was due there. For parameters this is by induction over their recursion.
* `prototype_readsForm`: so `prototype` accepts exactly its form, and blames the first deviation.
-/

import OpLang.Proofs.Item.EarliestFault

namespace OpLang

/-! ### The form -/

/-- Whether some tokens write parameters, with the parenthesis that closes them. -/
def IsParameterList (tokens : List Token) : Prop := ∃ names, RendersParameters names tokens

/-- Whether some tokens write a prototype. -/
def IsPrototype (tokens : List Token) : Prop := ∃ read, RendersPrototype read tokens

/-- The values of the identifiers among some tokens, in order. -/
def identifiers (tokens : List Token) : List String :=
  (tokens.filter (·.kind = .identifier)).map Token.value

theorem identifiers_cons_of_kind {token : Token} {tokens : List Token}
    (kind : token.kind = .identifier) :
    identifiers (token :: tokens) = token.value :: identifiers tokens := by
  simp [identifiers, kind]

theorem identifiers_cons_of_ne {token : Token} {tokens : List Token}
    (other : token.kind ≠ .identifier) : identifiers (token :: tokens) = identifiers tokens := by
  simp [identifiers, other]

theorem RendersParameters.names_eq {names : List String} {tokens : List Token}
    (renders : RendersParameters names tokens) : names = identifiers tokens := by
  induction renders with
  | last kind closes =>
    rw [identifiers_cons_of_kind kind, identifiers_cons_of_ne (by simp [closes])]
    rfl
  | more kind goesOn _ ih =>
    rw [identifiers_cons_of_kind kind, identifiers_cons_of_ne (by simp [goesOn]), ← ih]

/-- **A prototype is read from its identifiers:** the first is its name, and the others are its
parameters, none left out and none joined with another. -/
theorem RendersPrototype.names_eq {read : Prototype} {tokens : List Token}
    (renders : RendersPrototype read tokens) :
    read.name :: read.parameters = identifiers tokens := by
  cases renders with
  | bare kind opens closes =>
    rw [identifiers_cons_of_kind kind, identifiers_cons_of_ne (by simp [opens]),
      identifiers_cons_of_ne (by simp [closes])]
    rfl
  | withParameters kind opens parameters =>
    rw [identifiers_cons_of_kind kind, identifiers_cons_of_ne (by simp [opens]),
      parameters.names_eq]

/-- Parameters begin with a name, and behind it they end or go on. -/
theorem RendersParameters.cases_of_cons {names : List String} {first : Token} {tokens : List Token}
    (renders : RendersParameters names (first :: tokens)) :
    first.kind = .identifier ∧
      ∃ next others, tokens = next :: others ∧
        ((next.kind = .closeParen ∧ others = []) ∨ (next.kind = .comma ∧ IsParameterList others)) := by
  cases renders with
  | last kind closes => exact ⟨kind, _, _, rfl, .inl ⟨closes, rfl⟩⟩
  | more kind goesOn further => exact ⟨kind, _, _, rfl, .inr ⟨goesOn, _, further⟩⟩

/-- A prototype begins with a name and an opening parenthesis, and behind them it ends or has parameters. -/
theorem RendersPrototype.cases_of_cons {read : Prototype} {first : Token} {tokens : List Token}
    (renders : RendersPrototype read (first :: tokens)) :
    first.kind = .identifier ∧
      ∃ opening others, tokens = opening :: others ∧ opening.kind = .openParen ∧
        ((∃ closing, closing.kind = .closeParen ∧ others = [closing]) ∨ IsParameterList others) := by
  cases renders with
  | bare kind opens closes => exact ⟨kind, _, _, rfl, opens, .inl ⟨_, closes, rfl⟩⟩
  | withParameters kind opens parameters => exact ⟨kind, _, _, rfl, opens, .inr ⟨_, parameters⟩⟩

/-! ### Leaving a form -/

/-- **Whether a token behind some others leaves a form:** they can be completed to it, and with the token
they cannot. -/
structure LeavesForm (form : List Token → Prop) (before : List Token) (token : Token) : Prop where
  completable : ∃ completion, form (before ++ completion)
  refused : ∀ completion, ¬ form (before ++ token :: completion)

namespace LeavesForm

variable {name opening comma token : Token} {before : List Token}

/-- **At most one token of a list leaves a form.** -/
theorem unique {form : List Token → Prop} {before before' rest rest' : List Token}
    {token token' : Token} (leaves : LeavesForm form before token)
    (leaves' : LeavesForm form before' token')
    (same : before ++ token :: rest = before' ++ token' :: rest') :
    before = before' ∧ token = token' := by
  -- What stands before the later one of two such tokens could not be completed.
  have noLater {earlier later further : List Token} {first second : Token}
      (left : LeavesForm form earlier first) (left' : LeavesForm form later second) :
      later ≠ earlier ++ first :: further := by
    rintro rfl
    obtain ⟨completion, completed⟩ := left'.completable
    rw [List.append_assoc] at completed
    exact left.refused _ completed
  rcases List.append_eq_append_iff.mp same with ⟨between, behind, split⟩ | ⟨between, behind, split⟩
  · cases between with
    | nil => exact ⟨by rw [behind, List.append_nil], (List.cons.inj split).1⟩
    | cons next between =>
      obtain ⟨rfl, _⟩ := List.cons.inj split
      exact absurd behind (noLater leaves leaves')
  · cases between with
    | nil => exact ⟨by rw [behind, List.append_nil], (List.cons.inj split).1.symm⟩
    | cons next between =>
      obtain ⟨rfl, _⟩ := List.cons.inj split
      exact absurd behind (noLater leaves' leaves)

/-- Parameters are left where none begins. -/
theorem parameters_first (other : token.kind ≠ .identifier) : LeavesForm IsParameterList [] token where
  completable := ⟨[.someName, .someClosing], _, .last rfl rfl⟩
  refused := by
    rintro completion ⟨names, renders⟩
    exact other renders.cases_of_cons.1

/-- Parameters are left behind a name where they neither end nor go on. -/
theorem parameters_behind_name (kind : name.kind = .identifier) (open' : token.kind ≠ .closeParen)
    (apart : token.kind ≠ .comma) : LeavesForm IsParameterList [name] token where
  completable := ⟨[.someClosing], _, .last kind rfl⟩
  refused := by
    rintro completion ⟨names, renders⟩
    obtain ⟨_, next, others, same, ⟨closes, _⟩ | ⟨goesOn, _⟩⟩ := renders.cases_of_cons
    · obtain ⟨rfl, _⟩ := List.cons.inj same
      exact open' closes
    · obtain ⟨rfl, _⟩ := List.cons.inj same
      exact apart goesOn

/-- Parameters are left behind a comma where those behind it are. -/
theorem parameters_behind_comma (kind : name.kind = .identifier) (goesOn : comma.kind = .comma)
    (leaves : LeavesForm IsParameterList before token) :
    LeavesForm IsParameterList (name :: comma :: before) token where
  completable := by
    obtain ⟨completion, names, renders⟩ := leaves.completable
    exact ⟨completion, _, .more kind goesOn renders⟩
  refused := by
    rintro completion ⟨names, renders⟩
    obtain ⟨_, next, others, same, ⟨closes, _⟩ | ⟨_, further⟩⟩ := renders.cases_of_cons
    · obtain ⟨rfl, _⟩ := List.cons.inj same
      exact absurd closes (by simp [goesOn])
    · obtain ⟨_, rfl⟩ := List.cons.inj same
      exact leaves.refused completion further

/-- A prototype is left where no name stands. -/
theorem prototype_first (other : token.kind ≠ .identifier) : LeavesForm IsPrototype [] token where
  completable := ⟨[.someName, .someOpening, .someClosing], _, .bare rfl rfl rfl⟩
  refused := by
    rintro completion ⟨read, renders⟩
    exact other renders.cases_of_cons.1

/-- A prototype is left behind its name where no parenthesis opens. -/
theorem prototype_behind_name (kind : name.kind = .identifier) (other : token.kind ≠ .openParen) :
    LeavesForm IsPrototype [name] token where
  completable := ⟨[.someOpening, .someClosing], _, .bare kind rfl rfl⟩
  refused := by
    rintro completion ⟨read, renders⟩
    obtain ⟨_, next, others, same, opens, _⟩ := renders.cases_of_cons
    obtain ⟨rfl, _⟩ := List.cons.inj same
    exact other opens

/-- A prototype is left inside its parentheses where its parameters are, unless it ends at once. -/
theorem prototype_inside (kind : name.kind = .identifier) (opens : opening.kind = .openParen)
    (leaves : LeavesForm IsParameterList before token)
    (given : before = [] → token.kind ≠ .closeParen) :
    LeavesForm IsPrototype (name :: opening :: before) token where
  completable := by
    obtain ⟨completion, names, renders⟩ := leaves.completable
    exact ⟨completion, _, .withParameters kind opens renders⟩
  refused := by
    rintro completion ⟨read, renders⟩
    obtain ⟨_, next, others, same, _, ⟨closing, closes, rfl⟩ | parameters⟩ := renders.cases_of_cons
    · cases before with
      | nil =>
        obtain ⟨_, rest⟩ := List.cons.inj same
        obtain ⟨rfl, _⟩ := List.cons.inj rest
        exact given rfl closes
      | cons first before => simp at same
    · obtain ⟨_, rfl⟩ := List.cons.inj same
      exact leaves.refused completion parameters

end LeavesForm

/-! ### What is due -/

/-- What is due behind some tokens of a list of parameters, in the words of the complaint. -/
inductive DueInParameters : List Token → String → Prop where
  | first : DueInParameters [] Parser.parameterNameDue
  | name {earlier : List Token} {comma : Token} (goesOn : comma.kind = .comma) :
      DueInParameters (earlier ++ [comma]) Parser.parameterNameDue
  | separator {earlier : List Token} {parameter : Token} (kind : parameter.kind = .identifier) :
      DueInParameters (earlier ++ [parameter]) Parser.parameterSeparatorDue

/-- Behind a name and a comma the same is due as behind the tokens after them. -/
theorem DueInParameters.behind_comma {name comma : Token} {before : List Token} {complaint : String}
    (goesOn : comma.kind = .comma) (due : DueInParameters before complaint) :
    DueInParameters (name :: comma :: before) complaint := by
  cases due with
  | first => exact @DueInParameters.name [name] comma goesOn
  | @name earlier last goesOn => exact @DueInParameters.name (name :: comma :: earlier) last goesOn
  | @separator earlier parameter kind =>
    exact @DueInParameters.separator (name :: comma :: earlier) parameter kind

/-- **What is due behind some tokens of a prototype,** in the words of the complaint. -/
inductive DueInPrototype : List Token → String → Prop where
  | functionName : DueInPrototype [] Parser.functionNameDue
  | opening {name : Token} : DueInPrototype [name] Parser.openParenDue
  | inside {name opening : Token} {before : List Token} {complaint : String}
      (due : DueInParameters before complaint) : DueInPrototype (name :: opening :: before) complaint

namespace Parser

open ParseState (Takes)

variable {state after : ParseState} {diagnostic : Diagnostic}

/-! ### Where prototypes fail -/

/-- Where parameters fail, the current token leaves their form. -/
theorem parameters_leavesForm (fails : parameters.Fails state diagnostic after) :
    ∃ taken complaint, state.Takes taken after ∧ LeavesForm IsParameterList taken after.current ∧
      DueInParameters taken complaint ∧
      diagnostic = ⟨.notDue complaint after.current.value, after.current.start⟩ := by
  induction state using parameters_induction with
  | step state ih =>
    rcases fails_parameters.mp fails with ⟨other, raised, rfl⟩ | ⟨kind, behind⟩
    · exact ⟨[], _, .nothing, .parameters_first other, .first, raised⟩
    have name := Takes.of_kind kind nofun
    rcases behind with ⟨open', apart, raised, rfl⟩ | ⟨goesOn, fails⟩
    · exact ⟨_, _, name, .parameters_behind_name kind open' apart,
        @DueInParameters.separator [] _ kind, raised⟩
    · obtain ⟨taken, complaint, takes, leaves, due, raised⟩ := ih kind fails
      exact ⟨_, complaint, name.trans ((Takes.of_kind goesOn nofun).trans takes),
        leaves.parameters_behind_comma kind goesOn, due.behind_comma goesOn, raised⟩

/-- **Where a prototype fails,** the current token leaves its form, and the complaint names what was due. -/
theorem prototype_leavesForm (fails : prototype.Fails state diagnostic after) :
    ∃ taken complaint, state.Takes taken after ∧ LeavesForm IsPrototype taken after.current ∧
      DueInPrototype taken complaint ∧
      diagnostic = ⟨.notDue complaint after.current.value, after.current.start⟩ := by
  rcases fails_prototype.mp fails with ⟨other, raised, rfl⟩ | ⟨kind, behind⟩
  · exact ⟨[], _, .nothing, .prototype_first other, .functionName, raised⟩
  have name := Takes.of_kind kind nofun
  rcases behind with ⟨other, raised, rfl⟩ | ⟨opens, given, fails⟩
  · exact ⟨_, _, name, .prototype_behind_name kind other, .opening, raised⟩
  · obtain ⟨taken, complaint, takes, leaves, due, raised⟩ := parameters_leavesForm fails
    refine ⟨_, complaint, name.trans ((Takes.of_kind opens nofun).trans takes),
      leaves.prototype_inside kind opens ?_, .inside due, raised⟩
    rintro rfl
    cases takes
    exact given

/-! ### The form is read -/

/-- **A prototype is accepted exactly in its form, and the first deviation is blamed.** It is read from a
state if and only if the tokens to come begin with its form, a name and, in parentheses, names between
commas; the cursor moves over the form, and the name and the parameters are its identifiers in order.
Elsewhere the cursor moves to the first token that leaves the form, which the diagnostic quotes, and the
complaint names what was due there: the name of the function, the parenthesis that opens the parameters,
the name of a parameter in the first place or behind a comma, or the end or a comma behind a parameter. -/
theorem prototype_readsForm (state : ParseState) :
    ((∃ read after, prototype.Yields state read after) ↔
      ∃ taken, IsPrototype taken ∧ taken <+: state.upcoming) ∧
    (∀ read after, prototype.Yields state read after →
      ∃ taken, RendersPrototype read taken ∧ state.Takes taken after ∧
        read.name :: read.parameters = identifiers taken) ∧
    ((¬ ∃ taken, IsPrototype taken ∧ taken <+: state.upcoming) →
      ∃ taken after complaint, state.Takes taken after ∧
        LeavesForm IsPrototype taken after.current ∧ DueInPrototype taken complaint ∧
        prototype.Fails state ⟨.notDue complaint after.current.value, after.current.start⟩ after) := by
  have accepts : (∃ read after, prototype.Yields state read after) ↔
      ∃ taken, IsPrototype taken ∧ taken <+: state.upcoming := by
    constructor
    · rintro ⟨read, after, yields⟩
      obtain ⟨taken, takes, renders⟩ := renders_of_prototype yields
      exact ⟨taken, ⟨read, renders⟩, after.upcoming, takes.upcoming_eq.symm⟩
    · rintro ⟨taken, ⟨read, renders⟩, rest, upcoming⟩
      obtain ⟨after, yields, _⟩ := prototype_of_renders renders upcoming.symm
      exact ⟨read, after, yields⟩
  refine ⟨accepts, fun read after yields => ?_, fun formless => ?_⟩
  · obtain ⟨taken, takes, renders⟩ := renders_of_prototype yields
    exact ⟨taken, renders, takes, renders.names_eq⟩
  · cases reply : prototype state with
    | parsed read after trace => exact absurd (accepts.mp ⟨read, after, trace, reply⟩) formless
    | failed diagnostic after trace =>
      obtain ⟨taken, complaint, takes, leaves, due, rfl⟩ := prototype_leavesForm ⟨trace, reply⟩
      exact ⟨taken, after, complaint, takes, leaves, due, trace, reply⟩

/-- In `f(x,)` a parameter is due where the parenthesis closes. -/
example : (prototype (.ofTokens [.unplaced .identifier "f", .unplaced .openParen "(",
    .unplaced .identifier "x", .unplaced .comma ",", .unplaced .closeParen ")"])).result =
      .error ⟨.notDue parameterNameDue ")", .unknown⟩ := by
  cbv

end Parser

end OpLang
