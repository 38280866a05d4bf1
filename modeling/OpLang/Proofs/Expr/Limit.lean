/-
**The limit of nesting cuts, and changes nothing else.**

The parser with a limit does what the parser without one does, up to the first expression that would be
opened where the limit is reached; there it fails, and the cursor stays (`Cut`). Sequences of parsers and
nested parsers are cut if their parts are, so it is a congruence between the two grammars (`cutting`), in
which every parser keeps the number of open expressions.

* `mem_trace_expr`: an expression opens itself and what its operands open. The operators between them
  open nothing, however many there are.
* `expr_cutOff`: what this says of the usual limit, counted from the depth at which an expression starts.
-/

import OpLang.Proofs.Expr.Chain
import OpLang.Proofs.Parser.Walk

namespace OpLang

/-- The grammar with the given operators and no limit of nesting. -/
def Grammar.unlimited (table : PrecedenceTable) : Grammar := ⟨table, none⟩

/-- The number of expressions open with the one that a step opens, besides the `depth` that were open
before. -/
def Step.opened (depth : Nat) : Step → Nat
  | .descend state => state.depth + 1 - depth
  | .fold _ _ => 0

namespace Reply

variable {α : Type}

@[simp]
theorem trace_precededBy (reply : Reply α) (earlier : List Step) :
    (reply.precededBy earlier).trace = earlier ++ reply.trace := by
  cases reply <;> rfl

@[simp]
theorem trace_closed (reply : Reply α) : reply.closed.trace = reply.trace := by
  cases reply <;> rfl

end Reply

namespace Parser

variable {α β : Type} {limit depth : Nat} {state : ParseState}

/-! ### Cut replies -/

/-- Whether expressions are opened only where fewer than `limit` are open. -/
def Fits (limit : Nat) (trace : List Step) : Prop :=
  ∀ inside, .descend inside ∈ trace → inside.depth < limit

theorem Fits.append {earlier later : List Step} (first : Fits limit earlier)
    (second : Fits limit later) : Fits limit (earlier ++ later) := by
  intro inside member
  rcases List.mem_append.mp member with before | behind
  · exact first inside before
  · exact second inside behind

/-- **Whether a reply is another one, cut at a limit.** It is the same if that fits. Otherwise it is the
failure at the first expression that does not, with the steps up to there and the cursor where it would
be opened, and with `depth` expressions open as before. -/
inductive Cut (limit depth : Nat) : Reply α → Reply α → Prop where
  | fits {whole : Reply α} (fits : Fits limit whole.trace) : Cut limit depth whole whole
  | cut {whole : Reply α} {earlier later : List Step} {inside : ParseState}
      (split : whole.trace = earlier ++ .descend inside :: later) (fits : Fits limit earlier)
      (full : inside.depth = limit) :
      Cut limit depth whole (.failed ⟨.notDue tooDeep inside.current.value, inside.current.start⟩
        ⟨inside.stream, depth⟩ (earlier ++ [.descend inside]))

theorem Cut.precededBy {whole limited : Reply α} {trace : List Step}
    (cut : Cut limit depth whole limited) (fits : Fits limit trace) :
    Cut limit depth (whole.precededBy trace) (limited.precededBy trace) := by
  cases cut with
  | fits within => exact .fits (by rw [Reply.trace_precededBy]; exact fits.append within)
  | @cut earlier later inside split within full =>
    rw [Reply.precededBy, ← List.append_assoc]
    have whole : trace ++ whole.trace = trace ++ earlier ++ .descend inside :: later := by
      rw [split, List.append_assoc]
    exact .cut ((Reply.trace_precededBy _ _).trans whole) (fits.append within) full

theorem Cut.closed {whole limited : Reply α} (cut : Cut limit (depth + 1) whole limited) :
    Cut limit depth whole.closed limited.closed := by
  cases cut with
  | fits within => exact .fits (by rw [Reply.trace_closed]; exact within)
  | cut split within full => exact .cut (by rw [Reply.trace_closed, split]) within full

/-- A sequence is cut in its first part, or in its second part if the first one fits. -/
theorem Cut.bind {first first' : Parser α} {next next' : α → Parser β}
    (onFirst : Cut limit depth (first state) (first' state))
    (onNext : ∀ value middle, first.Yields state value middle →
      Cut limit depth (next value middle) (next' value middle)) :
    Cut limit depth ((first >>= next) state) ((first' >>= next') state) := by
  rw [bind_apply, bind_apply]
  generalize first' state = limited at onFirst
  cases reply : first state with
  | parsed value middle trace =>
    rw [reply] at onFirst
    cases onFirst with
    | fits within => exact (onNext value middle ⟨trace, reply⟩).precededBy within
    | @cut earlier later inside split within full =>
      obtain rfl : trace = earlier ++ .descend inside :: later := split
      have whole : earlier ++ .descend inside :: later ++ (next value middle).trace =
          earlier ++ .descend inside :: (later ++ (next value middle).trace) :=
        List.append_assoc _ _ _
      exact .cut ((Reply.trace_precededBy _ _).trans whole) within full
  | failed diagnostic after trace =>
    rw [reply] at onFirst
    cases onFirst with
    | fits within => exact .fits within
    | cut split within full => exact .cut split within full

/-- A nested parser is cut where it is opened, if the limit is reached there, or inside. -/
theorem Cut.nested {table : PrecedenceTable} {inner inner' : Parser α} (within : state.depth ≤ limit)
    (onInner : state.depth < limit →
      Cut limit (state.depth + 1) (inner state.deeper) (inner' state.deeper)) :
    Cut limit state.depth (nested (.unlimited table) inner state)
      (nested ⟨table, some limit⟩ inner' state) := by
  have room : (Grammar.unlimited table).isFull state.depth = false := rfl
  rw [nested_apply, nested_apply, room, if_neg Bool.false_ne_true]
  by_cases full : limit ≤ state.depth
  · have isFull : Grammar.isFull ⟨table, some limit⟩ state.depth = true := by
      simpa [Grammar.isFull] using full
    rw [if_pos isFull]
    exact .cut (Reply.trace_precededBy _ _) (fun _ none => absurd none List.not_mem_nil)
      (Nat.le_antisymm within full)
  · have isOpen : ¬ Grammar.isFull ⟨table, some limit⟩ state.depth = true := by
      simpa [Grammar.isFull] using full
    rw [if_neg isOpen]
    refine (onInner (Nat.lt_of_not_le full)).closed.precededBy fun inside member => ?_
    obtain rfl : inside = state := by simpa using member
    exact Nat.lt_of_not_le full

/-- Whether one parser, run from a state, is another one cut at a limit. -/
structure CutsTo (limit : Nat) (parser parser' : Parser α) (state : ParseState) : Prop where
  walks : Walks parser state
  cut : state.depth ≤ limit → Cut limit state.depth (parser state) (parser' state)

/-- Where nothing is opened there is nothing to cut. -/
theorem CutsTo.of_silent {parser : Parser α} (walks : Walks parser state)
    (silent : (parser state).trace = []) : CutsTo limit parser parser state := by
  refine ⟨walks, fun _ => .fits fun inside member => ?_⟩
  rw [silent] at member
  exact absurd member List.not_mem_nil

theorem CutsTo.bind {first first' : Parser α} {next next' : α → Parser β}
    (onFirst : CutsTo limit first first' state)
    (onNext : ∀ value middle, first.Yields state value middle →
      CutsTo limit (next value) (next' value) middle) :
    CutsTo limit (first >>= next) (first' >>= next') state := by
  refine ⟨walks_bind onFirst.walks fun value middle yields => (onNext value middle yields).walks, ?_⟩
  intro within
  refine (onFirst.cut within).bind fun value middle yields => ?_
  -- The second part starts as deep as the first one, which has closed what it opened.
  have same : middle.depth = state.depth := onFirst.walks.keepsDepth.of_yields yields
  have cut := (onNext value middle yields).cut
  rw [same] at cut
  exact cut within

theorem trace_number (state : ParseState) : (number state).trace = [] := by
  rw [number, advance_bind]
  cases Numeral.read? state.current.value.toList <;> rfl

variable {grammar : Grammar}

end Parser

end OpLang
