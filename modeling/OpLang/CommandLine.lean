/-
**The command line.**

The program takes a precedence table, a request to list the tokens and the name of a file from its
arguments, reads the file or its standard input, and answers with a status and with what it writes.
Status 2 says that there was nothing to parse, status 1 that something was reported, status 0 that
nothing was. The log shares the stream of errors with the reports, and comes before them.
-/

import OpLang.Diagnostic.Excerpt
import OpLang.Item.Printer
import OpLang.PrecedenceTable.Reader
import OpLang.Program.Journal

namespace OpLang.CommandLine

/-! ### Arguments -/

/-- What the arguments ask for. -/
structure Options where
  table : PrecedenceTable
  listTokens : Bool
  file : Option String
deriving DecidableEq

/-- What holds when there are no arguments. -/
def Options.initial : Options := ⟨.standard, false, none⟩

/-- Why arguments are refused. -/
inductive Refusal where
  /-- They are not of the form that the usage line shows, or ask for that line. -/
  | usage
  /-- A precedence table does not read. -/
  | badTable (diagnostic : Diagnostic)
deriving DecidableEq, Repr

/-- The options after some arguments, continuing from those before them. -/
def readArguments (options : Options) : List String → Except Refusal Options
  | [] => .ok options
  | argument :: others =>
    if argument = "--precedence" ∨ argument = "-p" then
      match others with
      | [] => .error .usage
      | table :: others =>
        match PrecedenceTable.read table with
        | .ok table => readArguments { options with table } others
        | .error diagnostic => .error (.badTable diagnostic)
    else if argument = "--tokens" then readArguments { options with listTokens := true } others
    else if argument = "--help" ∨ argument = "-h" then .error .usage
    else if options.file = none ∧ argument.toList.head? ≠ some '-' then
      readArguments { options with file := some argument } others
    else .error .usage

/-! ### Input -/

/-- Why the input cannot be read. -/
inductive ReadFault where
  | missing
  | directory
  | notText
  /-- Any other fault, described by the system. -/
  | other (description : String)
deriving DecidableEq, Repr

/-- The text of a fault. -/
def ReadFault.text : ReadFault → String
  | .missing => "No such file or directory (os error 2)"
  | .directory => "Is a directory (os error 21)"
  | .notText => "stream did not contain valid UTF-8"
  | .other description => description

/-- The bytes that the program can read: its standard input, and a file of each name or a fault. -/
structure Inputs where
  standard : ByteArray
  file : String → Except ReadFault ByteArray

/-- Bytes as text, if they are its UTF-8 form. -/
def decode (bytes : ByteArray) : Except ReadFault String :=
  match String.fromUTF8? bytes with
  | some text => .ok text
  | none => .error .notText

/-- The text of the file that the options name, or of the standard input. -/
def Inputs.text (inputs : Inputs) (options : Options) : Except ReadFault String :=
  match options.file with
  | none => decode inputs.standard
  | some name =>
    match inputs.file name with
    | .ok bytes => decode bytes
    | .error fault => .error fault

/-! ### The log -/

/-- The texts of a list joined in order. -/
def joined (texts : List String) : String := texts.foldl (· ++ ·) ""

/-- **A log** as it is set up for a run: which records it lets through, and what it writes for one of
them, given the number of those before it; that may tell the time. Besides it knows how long lexing
and parsing took. -/
structure Log where
  lets : Record → Bool
  line : Nat → Record → String
  lexingTime : String
  parsingTime : String

namespace Log

/-- The log that is turned off. -/
def off : Log := ⟨fun _ => false, fun _ _ => "", "", ""⟩

/-- What a log writes for some records. -/
def written (log : Log) (records : List Record) : String :=
  joined ((records.filter log.lets).mapIdx log.line)

/-- The records of a source with tokens and of their run, and how long these took. -/
def journal (log : Log) (source : Source) (run : Run) : List Record :=
  source.journal ++ ⟨.debug, "Tokenized in " ++ log.lexingTime⟩ ::
    run.journal ++ [⟨.debug, "Parsed in " ++ log.parsingTime⟩]

end Log

/-! ### Answers -/

/-- What the program leaves behind: its status and the text written to each stream. -/
structure Answer where
  status : Nat
  output : String
  errors : String
deriving DecidableEq, Repr

/-- The usage line. -/
def usageLine : String := "usage: kaleido [--precedence <op:prec,...>] [--tokens] [FILE]\n"

/-- The answer to arguments that are refused. -/
def Refusal.answer : Refusal → Answer
  | .usage => ⟨2, "", usageLine⟩
  | .badTable diagnostic => ⟨2, "", diagnostic.title ++ "\n"⟩

/-- The answer to an input that cannot be read. -/
def ReadFault.answer (fault : ReadFault) : Answer :=
  ⟨2, "", "Error: failed to read input: " ++ fault.text ++ "\n"⟩

/-- **The answer to a text:** its tokens if they are asked for, its items, and behind the log the
excerpts of all diagnostics. A text without tokens leaves only the excerpt that says why. -/
def Log.answerText (log : Log) (options : Options) (text : String) : Answer :=
  let source := Source.named text options.file
  match Token.tokenize source with
  | .error diagnostic => ⟨1, "", log.written source.journal ++ diagnostic.excerpt text⟩
  | .ok tokens =>
    let run := Run.ofTokens (Grammar.ofTable options.table) tokens
    let listing := if options.listTokens then joined (tokens.map Token.listing) else ""
    { status := if run.isClean then 0 else 1
      output := listing ++ joined (run.items.map fun item => item.text ++ "\n")
      errors := log.written (log.journal source run) ++
        joined (run.diagnostics.map fun diagnostic => diagnostic.excerpt text) }

/-- **The answer to a list of arguments** with the given inputs and a log. -/
def Log.answer (log : Log) (arguments : List String) (inputs : Inputs) : Answer :=
  match readArguments .initial arguments with
  | .error refusal => refusal.answer
  | .ok options =>
    match inputs.text options with
    | .error fault => fault.answer
    | .ok text => log.answerText options text

/-- The answer while the log is off. -/
def answer (arguments : List String) (inputs : Inputs) : Answer := Log.off.answer arguments inputs

end OpLang.CommandLine
