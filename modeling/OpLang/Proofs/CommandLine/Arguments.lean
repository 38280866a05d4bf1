/-
**What arguments mean.**

Arguments are a row of requests: for a precedence table, for the listing of the tokens, or for a file. A
request for a table takes the argument behind its flag, whatever that is.

* `Splits.read`: reading a row of requests grants them one after the other (`Options.grant`).
* `Options.Meets.granted`: what has been granted is met by the options: the last table, the listing if it is
  asked for, the file if there is one. The proof goes along the requests; that the options meet those behind
  it is its invariant.
* `Faults.read`: at a request that cannot be granted, and at an argument that begins none, reading stops.
* `splits_or_firstFault`: there is nothing else. All arguments are a row of requests that can be met
  together, or have a first fault.
* `FirstFault.answered`: the first fault is answered with the usage line, or with a line that names the
  first bad entry of a table.
* `Exchanges.read_of_accepted`: neighbouring requests of accepted arguments, of which one at least is not for
  a table, may change places. Otherwise both may be refused, and then the first of them is reported
  (`Exchanges.read`).
-/

import Mathlib.Data.List.Basic
import OpLang.CommandLine
import OpLang.Proofs.PrecedenceTable.Format

namespace OpLang.CommandLine

/-! ### Requests -/

/-- What one or two arguments ask for. -/
inductive Request where
  /-- The precedence table that a text writes. -/
  | table (text : String)
  | tokens
  | file (name : String)
deriving DecidableEq

/-- The text of a table that is asked for. -/
def Request.table? : Request → Option String
  | .table text => some text
  | _ => none

/-- The name of a file that is asked for. -/
def Request.file? : Request → Option String
  | .file name => some name
  | _ => none

/-- The flags in front of a table. -/
def IsTableFlag (argument : String) : Prop := argument = "--precedence" ∨ argument = "-p"

/-- Whether an argument begins like a flag. -/
def BeginsWithDash (argument : String) : Prop := argument.toList.head? = some '-'

/-- **Whether some arguments make a request.** The text of a table may look like a flag, the name of a file
may not; it may be empty. -/
inductive Request.Writes : Request → List String → Prop where
  | table {flag : String} (isFlag : IsTableFlag flag) (text : String) : Writes (.table text) [flag, text]
  | tokens : Writes .tokens ["--tokens"]
  | file {name : String} (plain : ¬ BeginsWithDash name) : Writes (.file name) [name]

/-- **Whether arguments split into requests,** from left to right. -/
inductive Splits : List String → List Request → Prop where
  | nothing : Splits [] []
  | request {front rest : List String} {request : Request} {requests : List Request}
      (writes : request.Writes front) (further : Splits rest requests) :
      Splits (front ++ rest) (request :: requests)

/-- **Whether requests can be met together:** every table reads, and there is one file at most. -/
structure Acceptable (requests : List Request) : Prop where
  tables : ∀ text, .table text ∈ requests → ∃ table, PrecedenceTable.read text = .ok table
  files : (requests.filterMap Request.file?).length ≤ 1

/-- **Whether options meet some requests:** they hold the table of the last text, or the standard one if none
is asked for, the listing of the tokens exactly if it is asked for, and the file if there is one. -/
structure Options.Meets (options : Options) (requests : List Request) : Prop where
  lastTable : ∀ text, (requests.filterMap Request.table?).getLast? = some text →
    PrecedenceTable.read text = .ok options.table
  standardTable : requests.filterMap Request.table? = [] → options.table = .standard
  listTokens : options.listTokens = true ↔ .tokens ∈ requests
  file : options.file = (requests.filterMap Request.file?).head?

/-- **Whether a request is refused behind others:** its table has an entry that gives nothing, the first of
which is to blame, or it is for a second file. -/
inductive Request.Refused (requests : List Request) : Request → Refusal → Prop where
  | badTable {text : String} {entry : List Char}
      (bad : PrecedenceTable.IsFirstBadEntry text.toList entry) :
      Refused requests (.table text) (.badTable ⟨.badEntry (String.ofList entry), .unknown⟩)
  | secondFile {name other : String} (earlier : .file other ∈ requests) :
      Refused requests (.file name) .usage

/-- **Whether arguments begin with a fault,** behind some requests: with a request that is refused, with a
flag for a table and none behind it, or with another flag. What follows does not matter. -/
inductive Faults (requests : List Request) : List String → Refusal → Prop where
  | request {front rest : List String} {request : Request} {refusal : Refusal}
      (writes : request.Writes front) (refused : request.Refused requests refusal) :
      Faults requests (front ++ rest) refusal
  | noTable {flag : String} (isFlag : IsTableFlag flag) : Faults requests [flag] .usage
  | option {argument : String} {rest : List String} (dash : BeginsWithDash argument)
      (noTable : ¬ IsTableFlag argument) (noListing : argument ≠ "--tokens") :
      Faults requests (argument :: rest) .usage

/-- **The first fault of some arguments,** behind requests that can be met together. -/
def FirstFault (arguments : List String) (refusal : Refusal) : Prop :=
  ∃ (front back : List String) (requests : List Request), arguments = front ++ back ∧
    Splits front requests ∧ Acceptable requests ∧ Faults requests back refusal

/-- **The line about a refusal,** of how arguments are written or of the entry to blame. -/
inductive Refusal.Line : Refusal → String → Prop where
  | usage : Line .usage "usage: kaleido [--precedence <op:prec,...>] [--tokens] [FILE]\n"
  | badTable (entry : String) (position : Position) :
      Line (.badTable ⟨.badEntry entry, position⟩)
        ("Error: InvalidPrecedence (Invalid precedence entry `" ++ entry ++
          "`, expected `<operator>:<precedence>`)\n")

/-- **Whether two neighbouring requests change places** behind some requests, of which one at least is not for
a table. -/
inductive Exchanges (requests : List Request) (first second : Request) :
    List String → List String → Prop where
  | exchange {before front back behind : List String} (splits : Splits before requests)
      (writes : first.Writes front) (writes' : second.Writes back)
      (apart : first.table? = none ∨ second.table? = none) :
      Exchanges requests first second (before ++ (front ++ (back ++ behind)))
        (before ++ (back ++ (front ++ behind)))

/-! ### Granting -/

theorem bind_eq_ok_iff {ε α β : Type} {first : Except ε α} {next : α → Except ε β} {result : β} :
    first >>= next = .ok result ↔ ∃ value, first = .ok value ∧ next value = .ok result := by
  cases first with
  | error fault => exact iff_of_false nofun nofun
  | ok value => exact ⟨fun same => ⟨value, rfl, same⟩, fun ⟨_, rfl, same⟩ => same⟩

/-- **What a request makes of the options.** -/
def Options.grant (options : Options) : Request → Except Refusal Options
  | .table text =>
    match PrecedenceTable.read text with
    | .ok table => .ok { options with table }
    | .error diagnostic => .error (.badTable diagnostic)
  | .tokens => .ok { options with listTokens := true }
  | .file name => if options.file = none then .ok { options with file := some name } else .error .usage

section Granting

variable {requests : List Request} {request : Request} {options next : Options} {refusal : Refusal}
  {text name : String} {further : List Request}

theorem Options.grant_table_ok {table : PrecedenceTable} (read : PrecedenceTable.read text = .ok table) :
    options.grant (.table text) = .ok { options with table } := by
  rw [grant, read]

theorem Options.grant_table_error {diagnostic : Diagnostic}
    (unread : PrecedenceTable.read text = .error diagnostic) :
    options.grant (.table text) = .error (.badTable diagnostic) := by
  rw [grant, unread]

theorem Options.grant_tokens : options.grant .tokens = .ok { options with listTokens := true } := rfl

theorem Options.grant_file_ok (free : options.file = none) :
    options.grant (.file name) = .ok { options with file := some name } := by
  rw [grant, if_pos free]

theorem Options.grant_file_error (taken : options.file ≠ none) :
    options.grant (.file name) = .error .usage := by
  rw [grant, if_neg taken]

theorem mem_filterMap_file_iff : name ∈ requests.filterMap Request.file? ↔ .file name ∈ requests := by
  rw [List.mem_filterMap]
  constructor
  · rintro ⟨request, mem, same⟩
    cases request with
    | file other => exact Option.some.inj same ▸ mem
    | table text => cases same
    | tokens => cases same
  · exact fun mem => ⟨.file name, mem, rfl⟩

/-- There is no file yet exactly if none was asked for. -/
theorem Options.Meets.file_eq_none_iff (meets : options.Meets requests) :
    options.file = none ↔ ∀ name, .file name ∉ requests := by
  rw [meets.file, List.head?_eq_none_iff, List.eq_nil_iff_forall_not_mem]
  simp only [mem_filterMap_file_iff]

/-- A table is refused exactly if it does not read. -/
theorem Request.refused_table_iff :
    (Request.table text).Refused requests refusal ↔
      ∃ diagnostic, PrecedenceTable.read text = .error diagnostic ∧ refusal = .badTable diagnostic := by
  constructor
  · rintro ⟨bad⟩
    exact ⟨_, PrecedenceTable.read_eq_error_iff.mpr ⟨_, bad, rfl⟩, rfl⟩
  · rintro ⟨diagnostic, unread, rfl⟩
    obtain ⟨entry, bad, rfl⟩ := PrecedenceTable.read_eq_error_iff.mp unread
    exact .badTable bad

/-- **A request is granted or refused,** as those are that the options meet already. -/
theorem Options.Meets.grant_cases (meets : options.Meets requests) (request : Request) :
    (∃ next, options.grant request = .ok next ∧ next.Meets (requests ++ [request]) ∧
      ∀ refusal, ¬ request.Refused requests refusal) ∨
    ∃ refusal, options.grant request = .error refusal ∧ request.Refused requests refusal := by
  cases request with
  | table text =>
    cases read : PrecedenceTable.read text with
    | error diagnostic =>
      exact .inr ⟨_, grant_table_error read, Request.refused_table_iff.mpr ⟨_, read, rfl⟩⟩
    | ok table =>
      refine .inl ⟨_, grant_table_ok read, ⟨?_, ?_, ?_, ?_⟩, ?_⟩
      · simp [Request.table?, read]
      · simp [Request.table?]
      · simp [meets.listTokens]
      · simp [Request.file?, meets.file]
      · intro refusal refused
        obtain ⟨diagnostic, unread, -⟩ := Request.refused_table_iff.mp refused
        cases read.symm.trans unread
  | tokens =>
    refine .inl ⟨_, grant_tokens, ⟨?_, ?_, ?_, ?_⟩, nofun⟩
    · simpa [Request.table?] using meets.lastTable
    · simpa [Request.table?] using meets.standardTable
    · simp
    · simp [Request.file?, meets.file]
  | file name =>
    by_cases free : options.file = none
    · refine .inl ⟨_, grant_file_ok free, ⟨?_, ?_, ?_, ?_⟩, ?_⟩
      · simpa [Request.table?] using meets.lastTable
      · simpa [Request.table?] using meets.standardTable
      · simp [meets.listTokens]
      · simp [Request.file?, ← meets.file, free]
      · intro refusal refused
        cases refused with
        | secondFile earlier => exact meets.file_eq_none_iff.mp free _ earlier
    · refine .inr ⟨_, grant_file_error free, ?_⟩
      rw [meets.file_eq_none_iff] at free
      push Not at free
      obtain ⟨other, earlier⟩ := free
      exact .secondFile earlier

/-- A request is refused for one reason only. -/
theorem Request.Refused.unique {other : Refusal} (refused : request.Refused requests refusal)
    (again : request.Refused requests other) : refusal = other := by
  cases request with
  | table text =>
    obtain ⟨diagnostic, unread, rfl⟩ := refused_table_iff.mp refused
    obtain ⟨diagnostic', unread', rfl⟩ := refused_table_iff.mp again
    rw [Except.error.inj (unread.symm.trans unread')]
  | tokens => cases refused
  | file name =>
    cases refused
    cases again
    rfl

theorem Options.Meets.grant_of_refused (meets : options.Meets requests)
    (refused : request.Refused requests refusal) : options.grant request = .error refusal := by
  obtain ⟨_, _, _, allowed⟩ | ⟨other, same, again⟩ := meets.grant_cases request
  · exact absurd refused (allowed refusal)
  · rw [same, refused.unique again]

theorem Options.Meets.refused_of_grant (meets : options.Meets requests)
    (notGranted : options.grant request = .error refusal) : request.Refused requests refusal := by
  obtain ⟨_, same, -⟩ | ⟨_, same, refused⟩ := meets.grant_cases request
  · cases same.symm.trans notGranted
  · cases same.symm.trans notGranted
    exact refused

/-- **One more request can be met together with others** exactly if it is not refused behind them. -/
theorem acceptable_concat_iff :
    Acceptable (requests ++ [request]) ↔
      Acceptable requests ∧ ∀ refusal, ¬ request.Refused requests refusal := by
  constructor
  · rintro ⟨tables, files⟩
    rw [List.filterMap_append, List.length_append] at files
    have tables' := fun text mem => tables text (List.mem_append_left _ mem)
    refine ⟨⟨tables', by omega⟩, fun refusal refused => ?_⟩
    cases request with
    | table text =>
      obtain ⟨table, read⟩ := tables text (by simp)
      obtain ⟨diagnostic, unread, -⟩ := Request.refused_table_iff.mp refused
      cases read.symm.trans unread
    | tokens => cases refused
    | file name =>
      cases refused with
      | secondFile earlier =>
        have first := List.length_pos_of_mem (mem_filterMap_file_iff.mpr earlier)
        have second : ([Request.file name].filterMap Request.file?).length = 1 := rfl
        omega
  · rintro ⟨⟨tables, files⟩, allowed⟩
    refine ⟨fun text mem => ?_, ?_⟩
    · rcases List.mem_append.mp mem with mem | mem
      · exact tables text mem
      · cases List.mem_singleton.mp mem
        cases read : PrecedenceTable.read text with
        | ok table => exact ⟨table, rfl⟩
        | error diagnostic =>
          exact absurd (Request.refused_table_iff.mpr ⟨_, read, rfl⟩) (allowed _)
    · cases request with
      | table text => simpa [List.filterMap_cons, Request.file?] using files
      | tokens => simpa [List.filterMap_cons, Request.file?] using files
      | file name =>
        have noFile : requests.filterMap Request.file? = [] :=
          List.eq_nil_iff_forall_not_mem.mpr fun other mem =>
            allowed _ (.secondFile (mem_filterMap_file_iff.mp mem))
        simp [noFile, Request.file?]

theorem Options.initial_meets : Options.initial.Meets [] where
  lastTable := nofun
  standardTable _ := rfl
  listTokens := iff_of_false nofun nofun
  file := rfl

theorem acceptable_nil : Acceptable [] := ⟨nofun, Nat.zero_le 1⟩

theorem Acceptable.of_append (acceptable : Acceptable (requests ++ further)) : Acceptable requests where
  tables text mem := acceptable.tables text (List.mem_append_left _ mem)
  files := by
    have files := acceptable.files
    rw [List.filterMap_append, List.length_append] at files
    omega

/-- **Granting a row of requests, one after the other,** leads to options that meet them all. -/
theorem Options.Meets.granted (meets : options.Meets requests) (acceptable : Acceptable requests)
    (granted : further.foldlM Options.grant options = .ok next) :
    Acceptable (requests ++ further) ∧ next.Meets (requests ++ further) := by
  induction further generalizing requests options with
  | nil =>
    cases granted
    rw [List.append_nil]
    exact ⟨acceptable, meets⟩
  | cons request others ih =>
    rw [List.foldlM_cons, bind_eq_ok_iff] at granted
    obtain ⟨middle, first, onward⟩ := granted
    obtain ⟨_, same, meets', allowed⟩ | ⟨_, same, -⟩ := meets.grant_cases request
    · cases same.symm.trans first
      rw [List.append_cons]
      exact ih meets' (acceptable_concat_iff.mpr ⟨acceptable, allowed⟩) onward
    · cases same.symm.trans first

/-- **Requests that can be met together are granted.** -/
theorem Options.Meets.exists_granted (meets : options.Meets requests)
    (acceptable : Acceptable (requests ++ further)) :
    ∃ next, further.foldlM Options.grant options = .ok next := by
  induction further generalizing requests options with
  | nil => exact ⟨options, rfl⟩
  | cons request others ih =>
    rw [List.append_cons] at acceptable
    obtain ⟨middle, same, meets', -⟩ | ⟨refusal, -, refused⟩ := meets.grant_cases request
    · rw [List.foldlM_cons, same]
      exact ih meets' acceptable
    · exact absurd refused ((acceptable_concat_iff.mp acceptable.of_append).2 refusal)

end Granting

/-! ### Reading -/

section Reading

variable {requests : List Request} {request : Request} {arguments front rest : List String}
  {options next final : Options} {refusal : Refusal} {flag : String}

theorem IsTableFlag.dash (isFlag : IsTableFlag flag) : BeginsWithDash flag := by
  rcases isFlag with rfl | rfl <;> rfl

/-- **Reading grants the request that comes first.** -/
theorem Request.Writes.read (writes : request.Writes front) (options : Options) (rest : List String) :
    readArguments options (front ++ rest) =
      options.grant request >>= fun next => readArguments next rest := by
  cases writes with
  | @table flag isFlag text =>
    rw [List.cons_append, List.cons_append, List.nil_append, readArguments,
      if_pos (show flag = "--precedence" ∨ flag = "-p" from isFlag), Options.grant]
    cases PrecedenceTable.read text <;> rfl
  | tokens =>
    rw [List.cons_append, List.nil_append, readArguments.eq_def]
    rfl
  | @file name plain =>
    have noFlag : ¬ (name = "--precedence" ∨ name = "-p") := fun isFlag =>
      plain (IsTableFlag.dash isFlag)
    have noListing : name ≠ "--tokens" := fun same => plain (same ▸ rfl)
    have noHelp : ¬ (name = "--help" ∨ name = "-h") := by
      rintro (rfl | rfl)
      · exact plain rfl
      · exact plain rfl
    rw [List.cons_append, List.nil_append, readArguments.eq_def]
    dsimp only
    rw [if_neg noFlag, if_neg noListing, if_neg noHelp]
    by_cases free : options.file = none
    · rw [if_pos ⟨free, plain⟩, Options.grant_file_ok free]
      rfl
    · rw [if_neg fun both => free both.1, Options.grant_file_error free]
      rfl

/-- **Reading a row of requests grants them one after the other.** -/
theorem Splits.read (splits : Splits front requests) (options : Options) (rest : List String) :
    readArguments options (front ++ rest) =
      requests.foldlM Options.grant options >>= fun next => readArguments next rest := by
  induction splits generalizing options with
  | nothing => rfl
  | request writes further ih =>
    rw [List.append_assoc, writes.read, List.foldlM_cons, bind_assoc]
    exact bind_congr fun next => ih next

theorem Splits.read_of_granted (splits : Splits front requests)
    (granted : requests.foldlM Options.grant options = .ok next) (rest : List String) :
    readArguments options (front ++ rest) = readArguments next rest := by
  rw [splits.read, granted]
  rfl

/-- **Reading stops at a fault.** -/
theorem Faults.read (faults : Faults requests arguments refusal) (meets : options.Meets requests) :
    readArguments options arguments = .error refusal := by
  cases faults with
  | request writes refused =>
    rw [writes.read, meets.grant_of_refused refused]
    rfl
  | @noTable flag isFlag =>
    rw [readArguments, if_pos (show flag = "--precedence" ∨ flag = "-p" from isFlag)]
  | @option argument rest dash noTable noListing =>
    have noFile : ¬ (options.file = none ∧ argument.toList.head? ≠ some '-') := fun both => both.2 dash
    rw [readArguments.eq_def]
    dsimp only
    rw [if_neg (show ¬ (argument = "--precedence" ∨ argument = "-p") from noTable), if_neg noListing,
      if_neg noFile, ite_self]

/-- Some arguments begin with a request or with a fault. -/
theorem writes_or_faults (argument : String) (others : List String) :
    (∃ (request : Request) (front back : List String), request.Writes front ∧
      argument :: others = front ++ back) ∨
    ∀ requests, Faults requests (argument :: others) .usage := by
  by_cases isFlag : IsTableFlag argument
  · cases others with
    | nil => exact .inr fun requests => .noTable isFlag
    | cons text back => exact .inl ⟨.table text, [argument, text], back, .table isFlag text, rfl⟩
  by_cases listing : argument = "--tokens"
  · exact .inl ⟨.tokens, [argument], others, listing ▸ .tokens, rfl⟩
  by_cases dash : BeginsWithDash argument
  · exact .inr fun requests => .option dash isFlag listing
  · exact .inl ⟨.file argument, [argument], others, .file dash, rfl⟩

theorem Request.Writes.length_pos (writes : request.Writes front) : 0 < front.length := by
  cases writes <;> exact Nat.succ_pos _

theorem Splits.concat (splits : Splits arguments requests) (writes : request.Writes front) :
    Splits (arguments ++ front) (requests ++ [request]) := by
  induction splits with
  | nothing => simpa using Splits.request writes .nothing
  | request first further ih =>
    rw [List.append_assoc]
    exact .request first ih

/-- Behind requests that can be met together, others are added to them up to a first fault. -/
theorem splits_or_firstFault_append (splits : Splits front requests) (acceptable : Acceptable requests)
    (rest : List String) :
    (∃ requests, Splits (front ++ rest) requests ∧ Acceptable requests) ∨
      ∃ refusal, FirstFault (front ++ rest) refusal := by
  -- A request can take two arguments, so the induction is on the length of what is not split yet.
  induction size : rest.length using Nat.strongRecOn generalizing front rest requests with
  | ind length ih =>
    subst size
    cases rest with
    | nil =>
      rw [List.append_nil]
      exact .inl ⟨requests, splits, acceptable⟩
    | cons argument others =>
      obtain ⟨request, written, back, writes, same⟩ | faults := writes_or_faults argument others
      · rw [same] at ih ⊢
        by_cases refused : ∃ refusal, request.Refused requests refusal
        · obtain ⟨refusal, refused⟩ := refused
          exact .inr ⟨refusal, front, _, requests, rfl, splits, acceptable, .request writes refused⟩
        · have shorter : back.length < (written ++ back).length := by
            rw [List.length_append]
            exact Nat.lt_add_of_pos_left writes.length_pos
          have acceptable' := acceptable_concat_iff.mpr ⟨acceptable, not_exists.mp refused⟩
          rw [← List.append_assoc]
          exact ih back.length shorter (splits.concat writes) acceptable' back rfl
      · exact .inr ⟨.usage, front, _, requests, rfl, splits, acceptable, faults requests⟩

/-- **All arguments are a row of requests that can be met together, or have a first fault.** -/
theorem splits_or_firstFault (arguments : List String) :
    (∃ requests, Splits arguments requests ∧ Acceptable requests) ∨
      ∃ refusal, FirstFault arguments refusal :=
  splits_or_firstFault_append .nothing acceptable_nil arguments

/-- The first fault of arguments is the reason why they are refused. -/
theorem FirstFault.read (fault : FirstFault arguments refusal) :
    readArguments .initial arguments = .error refusal := by
  obtain ⟨front, back, requests, rfl, splits, acceptable, faults⟩ := fault
  obtain ⟨next, granted⟩ := Options.initial_meets.exists_granted acceptable
  have met := (Options.initial_meets.granted acceptable_nil granted).2
  rw [splits.read_of_granted granted]
  exact faults.read met

/-- A refusal is answered with its line. -/
theorem Refusal.Line.answer {line : String} (told : refusal.Line line) :
    refusal.answer = ⟨2, "", line⟩ := by
  cases told with
  | usage => rfl
  | badTable entry position =>
    have sameLine : Diagnostic.title ⟨.badEntry entry, position⟩ ++ "\n" =
        "Error: InvalidPrecedence (Invalid precedence entry `" ++ entry ++
          "`, expected `<operator>:<precedence>`)\n" :=
      String.ext (by simp [Diagnostic.title, Cause.name, Cause.tip])
    rw [Refusal.answer, sameLine]

/-- There is a line about every fault. -/
theorem Faults.exists_line (faults : Faults requests arguments refusal) :
    ∃ line, refusal.Line line := by
  cases faults with
  | request writes refused =>
    cases refused with
    | badTable bad => exact ⟨_, .badTable _ _⟩
    | secondFile earlier => exact ⟨_, .usage⟩
  | noTable isFlag => exact ⟨_, .usage⟩
  | option dash noTable noListing => exact ⟨_, .usage⟩

/-- **Arguments are answered with the line about their first fault,** whatever the inputs are. -/
theorem FirstFault.answered (fault : FirstFault arguments refusal) :
    ∃ line, refusal.Line line ∧ ∀ log : Log, ∀ inputs, log.answer arguments inputs = ⟨2, "", line⟩ := by
  have refused := fault.read
  obtain ⟨front, back, requests, -, -, -, faults⟩ := fault
  obtain ⟨line, told⟩ := faults.exists_line
  refine ⟨line, told, fun log inputs => ?_⟩
  rw [Log.answer, refused]
  exact told.answer

/-- A row of requests that is accepted can be met, and is. -/
theorem Splits.met (splits : Splits arguments requests)
    (accepted : readArguments .initial arguments = .ok final) :
    Acceptable requests ∧ final.Meets requests := by
  rw [← List.append_nil arguments, splits.read, bind_eq_ok_iff] at accepted
  obtain ⟨next, granted, same⟩ := accepted
  cases same
  exact Options.initial_meets.granted acceptable_nil granted

/-- A row of requests that can be met together is accepted. -/
theorem Splits.accepted (splits : Splits arguments requests) (acceptable : Acceptable requests) :
    ∃ options, readArguments .initial arguments = .ok options := by
  obtain ⟨next, granted⟩ := Options.initial_meets.exists_granted acceptable
  refine ⟨next, ?_⟩
  rw [← List.append_nil arguments, splits.read_of_granted granted]
  rfl

end Reading

/-! ### Exchanges -/

section Exchange

variable {requests : List Request} {first second : Request} {options : Options}
  {arguments other : List String}

theorem Options.grant_exchange_tokens (request : Request) :
    (options.grant .tokens >>= fun next => next.grant request) =
      options.grant request >>= fun next => next.grant .tokens := by
  cases request with
  | table text => cases read : PrecedenceTable.read text <;> simp [bind, Except.bind, grant, read]
  | tokens => rfl
  | file name => by_cases free : options.file = none <;> simp [bind, Except.bind, grant, free]

/-- A table and a file are granted alike in both orders, unless both are refused. -/
theorem Options.grant_exchange_file (text name : String) :
    (options.grant (.table text) >>= fun next => next.grant (.file name)) =
        (options.grant (.file name) >>= fun next => next.grant (.table text)) ∨
      (∃ refusal, options.grant (.table text) = .error refusal) ∧
        ∃ refusal, options.grant (.file name) = .error refusal := by
  cases read : PrecedenceTable.read text with
  | ok table => by_cases free : options.file = none <;> simp [bind, Except.bind, grant, read, free]
  | error diagnostic =>
    by_cases free : options.file = none
    · simp [bind, Except.bind, grant, read, free]
    · exact .inr ⟨⟨_, grant_table_error read⟩, _, grant_file_error free⟩

/-- A second file is never granted. -/
theorem Options.grant_file_file (name name' : String) :
    (options.grant (.file name) >>= fun next => next.grant (.file name')) = .error .usage := by
  by_cases free : options.file = none
  · rw [grant_file_ok free]
    show Options.grant { options with file := some name } (.file name') = .error .usage
    exact grant_file_error (Option.some_ne_none name)
  · rw [grant_file_error free]
    rfl

/-- **Two requests of which one at least is not for a table** are granted alike in both orders, unless both
are refused. -/
theorem Options.grant_exchange (options : Options) (apart : first.table? = none ∨ second.table? = none) :
    (options.grant first >>= fun next => next.grant second) =
        (options.grant second >>= fun next => next.grant first) ∨
      (∃ refusal, options.grant first = .error refusal) ∧
        ∃ refusal, options.grant second = .error refusal := by
  cases first with
  | tokens => exact .inl (grant_exchange_tokens second)
  | table text =>
    cases second with
    | tokens => exact .inl (grant_exchange_tokens _).symm
    | table text' => exact absurd apart (by simp [Request.table?])
    | file name => exact grant_exchange_file text name
  | file name =>
    cases second with
    | tokens => exact .inl (grant_exchange_tokens _).symm
    | table text => exact (grant_exchange_file text name).imp Eq.symm And.symm
    | file name' => exact .inl ((grant_file_file name name').trans (grant_file_file name' name).symm)

/-- **An exchange does not change what is read,** unless both requests are refused: then reading stops at the
one that comes first. -/
theorem Exchanges.read (exchanges : Exchanges requests first second arguments other) :
    readArguments .initial other = readArguments .initial arguments ∨
      ∃ refusal refusal', first.Refused requests refusal ∧ second.Refused requests refusal' ∧
        readArguments .initial arguments = .error refusal ∧
        readArguments .initial other = .error refusal' := by
  cases exchanges with
  | @exchange before front back behind splits writes writes' apart =>
    cases granted : requests.foldlM Options.grant Options.initial with
    | error refusal =>
      left
      rw [splits.read, splits.read, granted]
      rfl
    | ok options =>
      have meets : options.Meets requests := (Options.initial_meets.granted acceptable_nil granted).2
      rw [splits.read_of_granted granted, splits.read_of_granted granted]
      obtain same | ⟨⟨refusal, refused⟩, refusal', refused'⟩ := options.grant_exchange apart
      · left
        simp only [writes.read, writes'.read, ← bind_assoc, same]
      · refine .inr ⟨refusal, refusal', meets.refused_of_grant refused,
          meets.refused_of_grant refused', ?_, ?_⟩
        · rw [writes.read, refused]
          rfl
        · rw [writes'.read, refused']
          rfl

/-- **Accepted arguments are read alike after an exchange.** -/
theorem Exchanges.read_of_accepted (exchanges : Exchanges requests first second arguments other)
    (accepted : readArguments .initial arguments = .ok options) :
    readArguments .initial other = .ok options := by
  obtain same | ⟨refusal, refusal', -, -, refused, -⟩ := exchanges.read
  · exact same.trans accepted
  · cases accepted.symm.trans refused

end Exchange

/-- Arguments that are read alike are answered alike. -/
theorem answer_congr {arguments other : List String}
    (same : readArguments .initial other = readArguments .initial arguments) (log : Log)
    (inputs : Inputs) : log.answer other inputs = log.answer arguments inputs := by
  rw [Log.answer, Log.answer, same]

/-- **Arguments mean the same in every order that keeps the order of the tables.** They are accepted exactly
if they are a row of requests that can be met together, and the options then meet these. If neighbours of
which one at least is not for a table change places, accepted arguments are answered as before. Arguments that
are not accepted are answered with status 2 and the line about their first fault. So an exchange does not
change that answer either, unless both neighbours are refused, and the first of them is reported. -/
theorem readArguments_meetsRequests (arguments : List String) :
    ((∃ options, readArguments .initial arguments = .ok options) ↔
      ∃ requests, Splits arguments requests ∧ Acceptable requests) ∧
    (∀ options requests, readArguments .initial arguments = .ok options → Splits arguments requests →
      options.Meets requests) ∧
    (∀ options requests first second other, readArguments .initial arguments = .ok options →
      Exchanges requests first second arguments other → readArguments .initial other = .ok options ∧
        ∀ log : Log, ∀ inputs, log.answer other inputs = log.answer arguments inputs) ∧
    (∀ refusal, (readArguments .initial arguments = .error refusal ↔ FirstFault arguments refusal) ∧
      (FirstFault arguments refusal → ∃ line, refusal.Line line ∧
        ∀ log : Log, ∀ inputs, log.answer arguments inputs = ⟨2, "", line⟩)) ∧
    ∀ requests first second other, Exchanges requests first second arguments other →
      (∀ log : Log, ∀ inputs, log.answer other inputs = log.answer arguments inputs) ∨
      ∃ refusal refusal', first.Refused requests refusal ∧ second.Refused requests refusal' ∧
        readArguments .initial arguments = .error refusal ∧
        readArguments .initial other = .error refusal' := by
  refine ⟨⟨?_, ?_⟩, ?_, ?_, fun refusal => ⟨⟨fun refused => ?_, FirstFault.read⟩,
    FirstFault.answered⟩, ?_⟩
  · rintro ⟨options, accepted⟩
    refine (splits_or_firstFault arguments).resolve_right ?_
    rintro ⟨refusal, fault⟩
    cases accepted.symm.trans fault.read
  · rintro ⟨requests, splits, acceptable⟩
    exact splits.accepted acceptable
  · exact fun options requests accepted splits => (splits.met accepted).2
  · intro options requests first second other accepted exchanges
    have accepted' := exchanges.read_of_accepted accepted
    exact ⟨accepted', answer_congr (accepted'.trans accepted.symm)⟩
  · obtain ⟨requests, splits, acceptable⟩ | ⟨other, fault⟩ := splits_or_firstFault arguments
    · obtain ⟨options, accepted⟩ := splits.accepted acceptable
      cases accepted.symm.trans refused
    · cases fault.read.symm.trans refused
      exact fault
  · exact fun requests first second other exchanges => exchanges.read.imp_left answer_congr

end OpLang.CommandLine
