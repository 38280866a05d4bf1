/-
**The journal is a faithful account of the run.**

`Turn.IsToldBy table turn records` says which records tell a turn, with their levels and texts: that of the
token it starts with; then the folds of a complete item, which are the operators of its body in post-order,
and its event; or some folds, the diagnostic of an item that failed, and the token that was skipped after
it. A semicolon has no more records than its token's.

* `Turn.startingAt_isToldBy`: every turn of the driver is told by its records.
* `Run.IsToldBy`: hence a run is told turn after turn, and the token at its end has the last record
  (`Run.startingAt_isToldBy`).
* `Run.journal_isFaithful`: read by levels, the journal lists the events that were announced and the
  diagnostics that were reported.
* `Run.filter_matters`: what is above the levels of traces and debugging is one record for each turn that is
  not a semicolon's.
-/

import Mathlib.Data.List.Basic
import OpLang.Program.Journal
import OpLang.Proofs.Expr.Folds
import OpLang.Proofs.Program.Account

namespace OpLang

/-- Whether a record is at a level above those of traces and of debugging. -/
def Record.matters (record : Record) : Bool :=
  match record.level with
  | .trace => false
  | .debug => false
  | .info => true
  | .error => true

/-- Lexing records nothing that matters. -/
theorem Source.filter_matters (source : Source) : source.journal.filter Record.matters = [] := by
  unfold Source.journal
  cases Token.tokenize source <;> rfl

/-! ### Folds -/

/-- An operator by which two operands were joined, with its precedence. -/
structure Fold where
  operator : String
  precedence : UInt16

namespace Fold

/-- The record of a fold. -/
def record (fold : Fold) : Record :=
  ⟨.trace, "folding " ++ fold.operator ++ " at precedence " ++ toString fold.precedence.toNat⟩

/-- Whether a table has the operator of a fold at its precedence. -/
def IsOf (table : PrecedenceTable) (fold : Fold) : Prop :=
  table.get? fold.operator = some fold.precedence

/-- **Steps known to a table are recorded as folds of it.** -/
theorem exists_of_known {table : PrecedenceTable} {trace : List Step}
    (known : ∀ step ∈ trace, step.IsKnown table) :
    ∃ folds : List Fold, (∀ fold ∈ folds, fold.IsOf table) ∧
      folds.map Fold.operator = trace.filterMap Step.operator? ∧
      folds.map Fold.record = trace.filterMap Step.record? := by
  induction trace with
  | nil => exact ⟨[], nofun, rfl, rfl⟩
  | cons step trace ih =>
    obtain ⟨folds, isOf, operators, records⟩ :=
      ih fun step member => known step (List.mem_cons_of_mem _ member)
    cases step with
    | descend state => exact ⟨folds, isOf, operators, records⟩
    | fold operator power =>
      obtain ⟨precedence, found, rfl⟩ := known _ List.mem_cons_self
      refine ⟨⟨operator, precedence⟩ :: folds, ?_, ?_, ?_⟩
      · intro fold member
        rcases List.mem_cons.mp member with rfl | further
        · exact found
        · exact isOf fold further
      · exact congrArg (operator :: ·) operators
      · exact congrArg (Fold.record ⟨operator, precedence⟩ :: ·) records

end Fold

/-! ### Turns -/

namespace Token

/-- The record of a token from which a turn is chosen. -/
def dispatched (token : Token) : Record :=
  ⟨.trace, "dispatching on " ++ token.kind.name ++ " " ++ Text.quoted token.value⟩

/-- The record of a token that is skipped. -/
def skipped (token : Token) : Record :=
  ⟨.debug, "skipped " ++ Text.quoted token.value ++ " after error"⟩

end Token

/-- **Whether records tell a turn.** -/
inductive Turn.IsToldBy (table : PrecedenceTable) : Turn → List Record → Prop where
  | separator {start : ParseState} (separates : start.current.kind = .semicolon) :
      IsToldBy table (.separator start) [start.current.dispatched]
  | completed {start after : ParseState} {item : Item} {trace : List Step} {folds : List Fold}
      (begins : start.current.kind ≠ .semicolon)
      (yields : (Parser.item (.ofTable table)).Yields start item after)
      (known : ∀ fold ∈ folds, fold.IsOf table)
      (postorder : folds.map Fold.operator = item.operators) :
      IsToldBy table (.completed start item trace after)
        (start.current.dispatched :: folds.map Fold.record ++ [⟨.info, item.event.text⟩])
  | abandoned {start after : ParseState} {diagnostic : Diagnostic} {trace : List Step}
      {folds : List Fold} (begins : start.current.kind ≠ .semicolon)
      (fails : Parser.item (.ofTable table) start = .failed diagnostic after trace)
      (known : ∀ fold ∈ folds, fold.IsOf table) :
      IsToldBy table (.abandoned start diagnostic trace after)
        (start.current.dispatched :: folds.map Fold.record ++
          [⟨.error, diagnostic.message⟩, after.current.skipped])

namespace Turn

/-- **Every turn of the driver is told by its records.** -/
theorem startingAt_isToldBy (table : PrecedenceTable) (state : ParseState) :
    (Turn.startingAt (.ofTable table) state).IsToldBy table
      (Turn.startingAt (.ofTable table) state).journal := by
  have records := Parser.item_records (.ofTable table) state
  obtain ⟨folds, isOf, operators, recorded⟩ := Fold.exists_of_known records.known
  unfold Turn.startingAt
  by_cases separates : state.current.kind = .semicolon
  · rw [if_pos separates]
    exact .separator separates
  · rw [if_neg separates]
    cases reply : Parser.item (.ofTable table) state with
    | parsed item after trace =>
      simp only [reply, Reply.trace] at operators recorded
      have postorder := records.shows item after trace reply
      rw [List.nil_append] at postorder
      show IsToldBy table _ (state.record :: trace.filterMap Step.record? ++ [item.event.record])
      rw [← recorded]
      exact .completed separates ⟨trace, reply⟩ isOf (operators.trans postorder)
    | failed diagnostic after trace =>
      simp only [reply, Reply.trace] at recorded
      show IsToldBy table _ (state.record :: trace.filterMap Step.record? ++
        [diagnostic.record, after.current.skippedRecord])
      rw [← recorded]
      exact .abandoned separates reply isOf

/-- Steps are recorded as traces. -/
theorem level_of_mem_folds {trace : List Step} {record : Record}
    (member : record ∈ trace.filterMap Step.record?) : record.level = .trace := by
  obtain ⟨step, _, recorded⟩ := List.mem_filterMap.mp member
  cases step with
  | descend state => cases recorded
  | fold operator power =>
    obtain rfl := Option.some.inj recorded
    rfl

/-- The records of a turn behind those of its folds. -/
def closing : Turn → List Record
  | .separator _ => []
  | .completed _ item _ _ => [item.event.record]
  | .abandoned _ diagnostic _ after => [diagnostic.record, after.current.skippedRecord]

/-- What keeps no traces keeps of a turn what it keeps of the records behind its folds. -/
theorem filter_journal (turn : Turn) {keeps : Record → Bool}
    (untraced : ∀ record, record.level = .trace → keeps record = false) :
    turn.journal.filter keeps = turn.closing.filter keeps := by
  have noStart : ∀ state : ParseState, keeps state.record = false := fun _ => untraced _ rfl
  have noFolds : ∀ trace : List Step, (trace.filterMap Step.record?).filter keeps = [] := by
    refine fun trace => List.filter_eq_nil_iff.mpr fun record member kept => ?_
    rw [untraced record (level_of_mem_folds member)] at kept
    exact Bool.false_ne_true kept
  cases turn <;> simp [journal, closing, noStart, noFolds]

/-- The one record of a turn at the level of information is its event's. -/
theorem filter_info (turn : Turn) :
    turn.journal.filter (·.level = .info) = (turn.event?.map Event.record).toList := by
  rw [turn.filter_journal fun _ traced => by rw [traced]; rfl]
  cases turn <;> rfl

/-- The one record of a turn at the level of errors is its diagnostic's. -/
theorem filter_error (turn : Turn) :
    turn.journal.filter (·.level = .error) =
      (turn.diagnostic?.map Diagnostic.record).toList := by
  rw [turn.filter_journal fun _ traced => by rw [traced]; rfl]
  cases turn <;> rfl

/-- The record of how a turn ended, with an item or with a diagnostic. -/
def outcome? : Turn → Option Record
  | .separator _ => none
  | .completed _ item _ _ => some ⟨.info, item.event.text⟩
  | .abandoned _ diagnostic _ _ => some ⟨.error, diagnostic.message⟩

/-- The one record of a turn that matters tells how it ended. -/
theorem filter_matters (turn : Turn) :
    turn.journal.filter Record.matters = turn.outcome?.toList := by
  rw [turn.filter_journal fun _ traced => by rw [Record.matters, traced]]
  cases turn <;> rfl

end Turn

/-! ### Runs -/

namespace Run

/-- **Whether records tell the turns from a state on:** each turn where the one before it stopped, and in
the end the token at which the driver halts. -/
inductive IsToldBy (table : PrecedenceTable) : ParseState → List Turn → List Record → Prop where
  | halt {state : ParseState} (ended : state.current.kind = .eof) :
      IsToldBy table state [] [state.current.dispatched]
  | turn {state : ParseState} {turn : Turn} {turns : List Turn} {told others : List Record}
      (more : state.current.kind ≠ .eof) (starts : turn.start = state)
      (tells : turn.IsToldBy table told) (further : IsToldBy table turn.next turns others) :
      IsToldBy table state (turn :: turns) (told ++ others)

/-- **A run is told by its journal,** turn after turn. -/
theorem startingAt_isToldBy (table : PrecedenceTable) (state : ParseState) :
    IsToldBy table state (Run.startingAt (.ofTable table) state).turns
      (Run.startingAt (.ofTable table) state).journal := by
  induction state using Run.startingAt.induct (.ofTable table) with
  | case1 state ended =>
    rw [startingAt_of_eof ended]
    exact .halt ended
  | case2 state more ih =>
    rw [startingAt_of_ne_eof more]
    have told := Turn.startingAt_isToldBy table state
    have whole := IsToldBy.turn more (Turn.start_startingAt _ state) told ih
    unfold Run.journal at whole ⊢
    rw [List.flatMap_cons, List.append_assoc]
    exact whole

/-- What keeps no traces keeps of a journal what it keeps of its turns. -/
theorem filter_journal (run : Run) {keeps : Record → Bool} {record? : Turn → Option Record}
    (untraced : ∀ record, record.level = .trace → keeps record = false)
    (each : ∀ turn : Turn, turn.journal.filter keeps = (record? turn).toList) :
    run.journal.filter keeps = run.turns.filterMap record? := by
  have final : [run.final.record].filter keeps = [] :=
    List.filter_eq_nil_iff.mpr fun record member kept => by
      obtain rfl := List.mem_singleton.mp member
      rw [untraced _ rfl] at kept
      exact Bool.false_ne_true kept
  rw [Run.journal, List.filter_append, final, List.append_nil, List.filter_flatMap,
    List.filterMap_eq_flatMap_toList]
  simp only [each]

/-- **The records of a run that matter** tell how its turns ended, in their order. -/
theorem filter_matters (run : Run) :
    run.journal.filter Record.matters = run.turns.filterMap Turn.outcome? :=
  run.filter_journal (fun _ traced => by rw [Record.matters, traced]) Turn.filter_matters

/-- **The journal is a faithful account of the run.** It tells the run turn after turn: with the token of
the turn; the folds of a complete item, which are the operators of its body in post-order at their
precedences in the table, and its event; or some folds, the diagnostic of an item that failed, and the
token skipped after it. Its records of events are those that were announced, the events of the items; its
records of errors are the diagnostics. -/
theorem journal_isFaithful (table : PrecedenceTable) (tokens : List Token) :
    let run := Run.ofTokens (.ofTable table) tokens
    IsToldBy table (.ofTokens tokens) run.turns run.journal ∧
      (run.journal.filter (·.level = .info)).map Record.message = run.announced.map Event.text ∧
      run.announced = run.events ∧
      (run.journal.filter (·.level = .error)).map Record.message =
        run.diagnostics.map Diagnostic.message := by
  intro run
  refine ⟨startingAt_isToldBy table (.ofTokens tokens), ?_, run.announced_eq_events, ?_⟩
  · rw [run.filter_journal (fun _ traced => by rw [traced]; rfl) Turn.filter_info,
      ← List.map_filterMap, List.map_map]
    rfl
  · rw [run.filter_journal (fun _ traced => by rw [traced]; rfl) Turn.filter_error,
      ← List.map_filterMap, List.map_map]
    rfl

end Run

end OpLang
