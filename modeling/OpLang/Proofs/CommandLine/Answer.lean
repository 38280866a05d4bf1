/-
**What the command line answers.**

Whatever the arguments and the inputs are, the status tells what is on the two streams. Status 2 says that
there is no text: the arguments are refused, or what they name is not the UTF-8 form of any text
(`Inputs.Provides`). Otherwise the streams hold what the text comes to, in this order: the tokens, if they
are asked for, and the items; and apart from them the excerpts of all that was reported. A text without
tokens leaves nothing but one excerpt.

The log writes to the stream of errors too, before any excerpt. `Log.Writes` says what: the lines of the
records that it lets through, hence nothing if it is off, and by default one line for each item and each
diagnostic.

* `toList_answerText_output`, `toList_answerText_errors`: the streams of a text with tokens, told by their
  characters.
* `Log.writes`, `Log.writes_of_unread`: what the log writes before.
* `status_of_answer`: when the status is 2.
* `answer_agrees`: all of it together, for every log. A line for an item is written although nothing was
  reported (`answer_logsItem`).
-/

import OpLang.CommandLine
import OpLang.Proofs.Program.Journal

namespace OpLang

/-- The characters of the line that lists a token: its kind, and its spelling if that is not fixed. -/
def Token.listed (token : Token) : List Char :=
  let spelling := match token.kind with
    | .identifier => token.value
    | .number => token.value
    | .operator => token.value
    | _ => ""
  (token.kind.name ++ " (" ++ spelling ++ ")\n").toList

theorem Token.toList_listing (token : Token) : token.listing.toList = token.listed := by
  unfold listing listed
  cases token.kind <;> rfl

namespace CommandLine

/-! ### Streams -/

/-- Joined texts are their characters, one text after the other. -/
theorem toList_joined (texts : List String) : (joined texts).toList = texts.flatMap String.toList := by
  have onward : ∀ front : String,
      (texts.foldl (· ++ ·) front).toList = front.toList ++ texts.flatMap String.toList := by
    induction texts with
    | nil => simp
    | cons text others ih =>
      intro front
      rw [List.foldl_cons, ih, String.toList_append, List.flatMap_cons, List.append_assoc]
  exact onward ""

/-- The characters of some texts on lines of their own. -/
def onLines (texts : List String) : List Char :=
  texts.flatMap fun text => text.toList ++ ['\n']

/-! ### Inputs -/

/-- Bytes are decoded as a text exactly if they are its UTF-8 form. -/
theorem decode_eq_ok_iff {bytes : ByteArray} {text : String} :
    decode bytes = .ok text ↔ bytes = text.toByteArray := by
  unfold decode String.fromUTF8?
  by_cases valid : bytes.IsValidUTF8
  · rw [dif_pos valid]
    refine ⟨fun same => ?_, fun same => ?_⟩
    · rw [← Except.ok.inj same]
      rfl
    · subst same
      rfl
  · rw [dif_neg valid]
    refine ⟨nofun, fun same => absurd ?_ valid⟩
    rw [same]
    exact text.isValidUTF8

/-- **Whether the input that some options name is there and is a text:** the bytes of the file, or of the
standard input if no file is named, are the UTF-8 form of the text. -/
def Inputs.Provides (inputs : Inputs) (options : Options) (text : String) : Prop :=
  match options.file with
  | none => inputs.standard = text.toByteArray
  | some name => inputs.file name = .ok text.toByteArray

theorem Inputs.text_eq_ok_iff {inputs : Inputs} {options : Options} {text : String} :
    inputs.text options = .ok text ↔ inputs.Provides options text := by
  unfold Inputs.text Inputs.Provides
  cases options.file with
  | none => exact decode_eq_ok_iff
  | some name =>
    cases found : inputs.file name with
    | ok bytes => simp only [found, decode_eq_ok_iff, Except.ok.injEq]
    | error fault => simp only [found, reduceCtorEq]

/-! ### The log -/

/-- **Whether some characters are what a log writes** for some records, of which the reports are those that
matter. -/
structure Log.Writes (log : Log) (records reports : List Record) (logged : List Char) : Prop where
  /-- It writes its line for each record that it lets through. -/
  lines : logged = ((records.filter log.lets).mapIdx log.line).flatMap String.toList
  /-- If it lets none through, it writes nothing. -/
  off : (∀ record, log.lets record = false) → logged = []
  /-- If it lets through what matters, it writes its lines for the reports. -/
  standard : (∀ record, log.lets record = record.matters) →
    logged = (reports.mapIdx log.line).flatMap String.toList

section Logs

variable (log : Log) {records reports : List Record}

/-- What a log writes for some records, told by those of them that matter. -/
theorem Log.writes_of_filter (same : records.filter Record.matters = reports) :
    log.Writes records reports (log.written records).toList where
  lines := toList_joined _
  off silent := by
    rw [Log.written, List.filter_eq_nil_iff.mpr fun record _ => by simp [silent]]
    rfl
  standard lets := by
    rw [Log.written, toList_joined, funext lets, same]

/-- For a text without tokens, nothing matters but the diagnostic. -/
theorem Log.writes_of_unread (source : Source) :
    log.Writes source.journal [] (log.written source.journal).toList :=
  log.writes_of_filter source.filter_matters

/-- **For a text with tokens** it matters how the turns of its run ended. -/
theorem Log.writes (source : Source) (run : Run) :
    log.Writes (log.journal source run) (run.turns.filterMap Turn.outcome?)
      (log.written (log.journal source run)).toList := by
  apply log.writes_of_filter
  rw [Log.journal, List.filter_append, List.filter_append, source.filter_matters, List.nil_append,
    List.filter_cons_of_neg Bool.false_ne_true, run.filter_matters]
  exact List.append_nil _

end Logs

/-! ### Answers -/

variable (log : Log) (arguments : List String) (inputs : Inputs)

/-- What the arguments ask for and the text that is there, or the reason why there is none. -/
theorem answer_cases :
    (∃ refusal, readArguments .initial arguments = .error refusal ∧
      log.answer arguments inputs = refusal.answer) ∨
    (∃ (options : Options) (fault : ReadFault), readArguments .initial arguments = .ok options ∧
      (∀ text, ¬ inputs.Provides options text) ∧ log.answer arguments inputs = fault.answer) ∨
    ∃ (options : Options) (text : String), readArguments .initial arguments = .ok options ∧
      inputs.Provides options text ∧ log.answer arguments inputs = log.answerText options text := by
  unfold Log.answer
  cases readArguments .initial arguments with
  | error refusal => exact .inl ⟨refusal, rfl, rfl⟩
  | ok options =>
    right
    cases read : inputs.text options with
    | error fault =>
      refine .inl ⟨options, fault, rfl, fun text provides => ?_, by simp only [read]⟩
      rw [Inputs.text_eq_ok_iff.mpr provides] at read
      cases read
    | ok text => exact .inr ⟨options, text, rfl, Inputs.text_eq_ok_iff.mp read, by simp only [read]⟩

theorem Refusal.answer_status (refusal : Refusal) :
    refusal.answer.status = 2 ∧ refusal.answer.output = "" := by
  cases refusal <;> exact ⟨rfl, rfl⟩

section Texts

variable {options : Options} {text : String} {tokens : List Token}

/-- A text without tokens leaves the excerpt that tells why, behind the log. -/
theorem answerText_of_unread {diagnostic : Diagnostic}
    (unread : Token.tokenize (Source.named text options.file) = .error diagnostic) :
    log.answerText options text =
      ⟨1, "", log.written (Source.named text options.file).journal ++ diagnostic.excerpt text⟩ := by
  simp only [Log.answerText, unread]

/-- The output of a text with tokens: their listing if it is asked for, and a line for each item. -/
theorem toList_answerText_output
    (read : Token.tokenize (Source.named text options.file) = .ok tokens) :
    (log.answerText options text).output.toList =
      (if options.listTokens then tokens.flatMap Token.listed else []) ++
        onLines ((Run.ofTokens (.ofTable options.table) tokens).items.map Item.text) := by
  simp only [Log.answerText, read, String.toList_append, toList_joined, onLines, List.flatMap_map]
  cases options.listTokens <;> simp [toList_joined, List.flatMap_map, Token.toList_listing]

/-- The errors of a text with tokens are, behind the log, the excerpts of all that was reported. -/
theorem toList_answerText_errors
    (read : Token.tokenize (Source.named text options.file) = .ok tokens) :
    let run := Run.ofTokens (.ofTable options.table) tokens
    (log.answerText options text).errors.toList =
      (log.written (log.journal (Source.named text options.file) run)).toList ++
        run.diagnostics.flatMap fun diagnostic => (diagnostic.excerpt text).toList := by
  simp only [Log.answerText, read, String.toList_append, toList_joined, List.flatMap_map]

/-- The status of a text with tokens tells whether anything was reported. -/
theorem answerText_status
    (read : Token.tokenize (Source.named text options.file) = .ok tokens) :
    (log.answerText options text).status =
      if (Run.ofTokens (.ofTable options.table) tokens).diagnostics = [] then 0 else 1 := by
  simp only [Log.answerText, read, Run.isClean, List.isEmpty_iff]

end Texts

/-- A text never answers with status 2. -/
theorem answerText_status_le (options : Options) (text : String) :
    (log.answerText options text).status ≤ 1 := by
  cases read : Token.tokenize (Source.named text options.file) with
  | error diagnostic => exact Nat.le_of_eq (congrArg Answer.status (answerText_of_unread log read))
  | ok tokens =>
    rw [answerText_status log read]
    split <;> omega

/-- Status 2 says that there is no text, and comes with nothing on the stream of output. -/
theorem status_of_answer :
    (log.answer arguments inputs).status ≤ 2 ∧
    ((log.answer arguments inputs).status = 2 ↔
      (∃ refusal, readArguments .initial arguments = .error refusal) ∨
      ∃ options, readArguments .initial arguments = .ok options ∧
        ∀ text, ¬ inputs.Provides options text) ∧
    ((log.answer arguments inputs).status = 2 → (log.answer arguments inputs).output = "") := by
  obtain ⟨refusal, refused, same⟩ | ⟨options, fault, accepted, absent, same⟩ |
      ⟨options, text, accepted, provided, same⟩ := answer_cases log arguments inputs
  · obtain ⟨status, output⟩ := refusal.answer_status
    rw [same, status, output]
    exact ⟨Nat.le_refl 2, iff_of_true rfl (.inl ⟨refusal, refused⟩), fun _ => rfl⟩
  · rw [same]
    exact ⟨Nat.le_refl 2, iff_of_true rfl (.inr ⟨options, accepted, absent⟩), fun _ => rfl⟩
  · have atMost := answerText_status_le log options text
    rw [same]
    refine ⟨by omega, iff_of_false (by omega) ?_, fun status => by omega⟩
    rintro (⟨refusal, refused⟩ | ⟨options', accepted', absent⟩)
    · cases accepted.symm.trans refused
    · cases accepted.symm.trans accepted'
      exact absent text provided

/-- **The status and the streams agree with what there was to read and with its run.** What the log writes
stands before all excerpts; there is nothing else on the stream of errors. -/
theorem answer_agrees :
    (log.answer arguments inputs).status ≤ 2 ∧
    ((log.answer arguments inputs).status = 2 ↔
      (∃ refusal, readArguments .initial arguments = .error refusal) ∨
      ∃ options, readArguments .initial arguments = .ok options ∧
        ∀ text, ¬ inputs.Provides options text) ∧
    ((log.answer arguments inputs).status = 2 → (log.answer arguments inputs).output = "") ∧
    ∀ options text, readArguments .initial arguments = .ok options → inputs.Provides options text →
      (∀ diagnostic, Token.tokenize (Source.named text options.file) = .error diagnostic →
        (log.answer arguments inputs).status = 1 ∧ (log.answer arguments inputs).output = "" ∧
        ∃ logged, log.Writes (Source.named text options.file).journal [] logged ∧
          (log.answer arguments inputs).errors.toList =
            logged ++ (diagnostic.excerpt text).toList) ∧
      ∀ tokens, Token.tokenize (Source.named text options.file) = .ok tokens →
        let run := Run.ofTokens (.ofTable options.table) tokens
        (log.answer arguments inputs).output.toList =
          (if options.listTokens then tokens.flatMap Token.listed else []) ++
            onLines (run.items.map Item.text) ∧
        (∃ logged, log.Writes (log.journal (Source.named text options.file) run)
            (run.turns.filterMap Turn.outcome?) logged ∧
          (log.answer arguments inputs).errors.toList =
            logged ++ run.diagnostics.flatMap fun diagnostic => (diagnostic.excerpt text).toList) ∧
        ((log.answer arguments inputs).status = 0 ↔ run.diagnostics = []) := by
  obtain ⟨atMost, refused, silent⟩ := status_of_answer log arguments inputs
  refine ⟨atMost, refused, silent, fun options text accepted provided => ?_⟩
  have same : log.answer arguments inputs = log.answerText options text := by
    simp only [Log.answer, accepted, Inputs.text_eq_ok_iff.mpr provided]
  rw [same]
  refine ⟨fun diagnostic unread => ?_, fun tokens read => ?_⟩
  · rw [answerText_of_unread log unread]
    exact ⟨rfl, rfl, _, log.writes_of_unread _, String.toList_append⟩
  · refine ⟨toList_answerText_output log read, ⟨_, log.writes _ _, toList_answerText_errors log read⟩, ?_⟩
    rw [answerText_status log read]
    split
    case isTrue clean => exact iff_of_true rfl clean
    case isFalse reported => exact iff_of_false nofun reported

/-- The stream of errors holds more than excerpts unless the log is off: where a log lets through what
matters, the text `1` leaves a line about its item, though nothing is reported. -/
theorem answer_logsItem :
    let header := "[2024-01-01T00:00:00Z INFO  kaleido::parser::parser] "
    let log : Log := ⟨Record.matters, fun _ record => header ++ record.message ++ "\n", "2ms", "1ms"⟩
    let inputs : Inputs := ⟨"1".toByteArray, fun _ => .error .missing⟩
    let tokens := [⟨.number, "1", .ofNat 0 1 "shell"⟩, .atEnd (.ofNat 1 "shell")]
    let run := Run.ofTokens (.ofTable .standard) tokens
    readArguments .initial [] = .ok .initial ∧ inputs.Provides .initial "1" ∧
      Token.tokenize (Source.named "1" none) = .ok tokens ∧ run.diagnostics = [] ∧
      (log.answer [] inputs).status = 0 ∧
      (log.answer [] inputs).errors = header ++ "Parsed a top-level expression.\n" ∧
      (log.answer [] inputs).errors.toList ≠
        run.diagnostics.flatMap fun diagnostic => (diagnostic.excerpt "1").toList := by
  intro header log inputs tokens run
  have clean : run.diagnostics = [] := by decide +kernel
  have errors : (log.answer [] inputs).errors = header ++ "Parsed a top-level expression.\n" := by
    decide +kernel
  refine ⟨rfl, rfl, by decide +kernel, clean, by decide +kernel, errors, ?_⟩
  rw [clean, errors]
  decide +kernel

end CommandLine

end OpLang
