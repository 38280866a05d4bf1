/-
**Parsers look one token ahead.**

`LooksNoFurther parser state` says that what a parser does from `state` is settled by the tokens that
it takes and the one at which it stops. From any state as deep, where these are the first tokens to
come, it takes the same ones and replies with the same value or diagnostic, whatever comes behind
them. A sequence looks no further if its parts do not: the first part of a run stops at the token
where the second one starts, which is known even if the second one takes nothing
(`looksNoFurther_bind`). So this is a congruence (`settling`), and holds of all parsers.
-/

import OpLang.Proofs.Parser.Fails
import OpLang.Proofs.Parser.Walk

namespace OpLang

namespace ParseState

/-- The tokens of a move and the one where it ends begin with the one where it starts. -/
theorem Takes.exists_eq_cons {state after : ParseState} {taken : List Token}
    (takes : state.Takes taken after) (others : List Token) :
    ∃ rest, taken ++ after.current :: others = state.current :: rest := by
  cases takes with
  | nothing => exact ⟨others, rfl⟩
  | token _ _ => exact ⟨_, rfl⟩

end ParseState

namespace Parser

variable {α β : Type} {state : ParseState}

/-- Whether a parser, run from a state, replies by the tokens that it takes and the one at which it
stops, whatever comes behind. -/
def LooksNoFurther (parser : Parser α) (state : ParseState) : Prop :=
  ∃ taken, state.Takes taken (parser state).after ∧
    ∀ (state' : ParseState) (others : List Token), state'.depth = state.depth →
      state'.upcoming = taken ++ (parser state).after.current :: others →
      state'.Takes taken (parser state').after ∧ (parser state').result = (parser state).result

/-- A parser that stays where it is, and looks at the current token at most, looks no further. -/
theorem LooksNoFurther.of_stays {parser : Parser α} (reads : Token → Except Diagnostic α)
    (stays : ∀ state, (parser state).after = state ∧ (parser state).result = reads state.current) :
    LooksNoFurther parser state := by
  unfold LooksNoFurther
  simp only [(stays _).1, (stays _).2]
  refine ⟨[], .nothing, fun state' others _ upcoming => ⟨.nothing, ?_⟩⟩
  rw [ParseState.current_eq_of_upcoming upcoming]

/-- A parser that takes the current token, which is no end, and looks at no other, looks no further. -/
theorem LooksNoFurther.of_advances {parser : Parser α} (more : state.current.kind ≠ .eof)
    (reads : Token → Except Diagnostic α)
    (advances : ∀ state, (parser state).after = state.advance ∧
      (parser state).result = reads state.current) :
    LooksNoFurther parser state := by
  unfold LooksNoFurther
  simp only [(advances _).1, (advances _).2]
  refine ⟨[state.current], .current more, fun state' others _ upcoming => ?_⟩
  rw [← ParseState.current_eq_of_upcoming upcoming] at more ⊢
  exact ⟨.current more, rfl⟩

/-- What a failure was settled by leads to the same failure elsewhere. -/
theorem LooksNoFurther.of_failed {parser : Parser α} {diagnostic : Diagnostic} {after : ParseState}
    {trace : List Step} (looks : LooksNoFurther parser state)
    (reply : parser state = .failed diagnostic after trace) :
    ∃ taken, state.Takes taken after ∧
      ∀ (state' : ParseState) (others : List Token), state'.depth = state.depth →
        state'.upcoming = taken ++ after.current :: others →
        (parser state').result = .error diagnostic := by
  obtain ⟨taken, takes, settled⟩ := looks
  rw [reply] at takes settled
  exact ⟨taken, takes, fun state' others depth upcoming => (settled state' others depth upcoming).2⟩

theorem looksNoFurther_bind {first : Parser α} {next : α → Parser β}
    (onFirst : LooksNoFurther first state)
    (onNext : ∀ value middle, first.Yields state value middle → LooksNoFurther (next value) middle) :
    LooksNoFurther (first >>= next) state := by
  obtain ⟨taken, takes, settled⟩ := onFirst
  unfold LooksNoFurther
  cases reply : first state with
  | failed diagnostic after trace =>
    rw [reply] at takes settled
    rw [bind_of_failed reply]
    refine ⟨taken, takes, fun state' others depth upcoming => ?_⟩
    obtain ⟨takes', result⟩ := settled state' others depth upcoming
    obtain ⟨trace', reply'⟩ := Reply.exists_failed_of_result result
    rw [bind_of_failed reply']
    exact ⟨takes', rfl⟩
  | parsed value middle trace =>
    rw [reply] at takes settled
    obtain ⟨further, takesFurther, settledFurther⟩ := onNext value middle ⟨trace, reply⟩
    rw [bind_of_parsed reply, Reply.after_precededBy, Reply.result_precededBy]
    refine ⟨taken ++ further, takes.trans takesFurther, fun state' others depth upcoming => ?_⟩
    rw [List.append_assoc] at upcoming
    -- The token at which the first part stops is the first one that the second part takes, or, if it
    -- takes none, the one at which the second part stops too.
    obtain ⟨rest, front⟩ := takesFurther.exists_eq_cons others
    obtain ⟨takes', result⟩ := settled state' rest depth (front ▸ upcoming)
    obtain ⟨trace', reply'⟩ := Reply.exists_parsed_of_result result
    have depth' : (first state').after.depth = middle.depth :=
      takes'.depth_eq.trans (depth.trans takes.depth_eq.symm)
    rw [takes'.upcoming_eq] at upcoming
    obtain ⟨takesFurther', resultFurther⟩ :=
      settledFurther _ others depth' (List.append_cancel_left upcoming)
    rw [bind_of_parsed reply', Reply.after_precededBy, Reply.result_precededBy]
    exact ⟨takes'.trans takesFurther', resultFurther⟩

theorem LooksNoFurther.wrap {parser : Parser α} {wrap : α → β} (looks : LooksNoFurther parser state) :
    LooksNoFurther (parser >>= fun value => pure (wrap value)) state :=
  looksNoFurther_bind looks fun value _ _ =>
    .of_stays (fun _ => .ok (wrap value)) fun _ => ⟨rfl, rfl⟩

theorem looksNoFurther_nested {grammar : Grammar} {inner : Parser α}
    (onInner : LooksNoFurther inner state.deeper) : LooksNoFurther (nested grammar inner) state := by
  unfold LooksNoFurther
  simp only [nested_apply]
  by_cases full : grammar.isFull state.depth = true
  · obtain ⟨taken, takes, settled⟩ :=
      @LooksNoFurther.of_stays _ state (failHere (.notDue tooDeep) : Parser α)
        (fun token => .error ⟨.notDue tooDeep token.value, token.start⟩) fun state => ⟨rfl, rfl⟩
    rw [if_pos full, Reply.after_precededBy, Reply.result_precededBy]
    refine ⟨taken, takes, fun state' others depth upcoming => ?_⟩
    rw [depth, if_pos full, Reply.after_precededBy, Reply.result_precededBy]
    exact settled state' others depth upcoming
  · obtain ⟨taken, takes, settled⟩ := onInner
    rw [if_neg full, Reply.after_precededBy, Reply.result_precededBy, Reply.after_closed,
      Reply.result_closed]
    refine ⟨taken, takes.shallower, fun state' others depth upcoming => ?_⟩
    obtain ⟨takes', result⟩ := settled state'.deeper others (congrArg (· + 1) depth) upcoming
    rw [depth, if_neg full, Reply.after_precededBy, Reply.result_precededBy, Reply.after_closed,
      Reply.result_closed]
    exact ⟨takes'.shallower, result⟩

/-- What a number token is read as. -/
def numberRead (token : Token) : Except Diagnostic Expr :=
  match Numeral.read? token.value.toList with
  | some value => .ok (.number value)
  | none => .error ⟨.badNumber token.value, token.start⟩

theorem looksNoFurther_number (kind : state.current.kind = .number) :
    LooksNoFurther number state := by
  refine .of_advances (by simp [kind]) numberRead fun state => ?_
  rw [number, advance_bind, numberRead]
  cases Numeral.read? state.current.value.toList <;> exact ⟨rfl, rfl⟩

/-- **To look no further is a congruence;** the second grammar plays no part in it. -/
def settling {grammar grammar' : Grammar} (same : grammar'.table = grammar.table) :
    Congruence grammar grammar' where
  Related parser _ state := LooksNoFurther parser state
  table_eq := same
  related_pure value _ := .of_stays (fun _ => .ok value) fun _ => ⟨rfl, rfl⟩
  related_bind := looksNoFurther_bind
  related_current _ := .of_stays .ok fun _ => ⟨rfl, rfl⟩
  related_advance _ more := .of_advances more .ok fun _ => ⟨rfl, rfl⟩
  related_number _ := looksNoFurther_number
  related_noExpression _ :=
    .of_stays (fun token => .error ⟨.noExpression token.value, token.start⟩) fun _ => ⟨rfl, rfl⟩
  related_notDue complaint _ :=
    .of_stays (fun token => .error ⟨.notDue complaint token.value, token.start⟩) fun _ => ⟨rfl, rfl⟩
  related_fold _ _ _ := .of_stays (fun _ => .ok ()) fun _ => ⟨rfl, rfl⟩
  related_nested := looksNoFurther_nested

end Parser

end OpLang
