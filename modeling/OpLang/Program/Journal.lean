/-
**The journal of a run.**

Lexing and parsing keep a journal of records, each a level and a message. A turn records the token
that it starts with, the folds of its chains, and how it ended; the end of the program records only
its token.
-/

import OpLang.Program.Run
import OpLang.Token.Lexer

namespace OpLang

/-- How much a record matters. -/
inductive Record.Level where
  | trace
  | debug
  | info
  | error
deriving DecidableEq, Repr

/-- The name of a level. -/
def Record.Level.name : Record.Level → String
  | .trace => "trace"
  | .debug => "debug"
  | .info => "info"
  | .error => "error"

/-- One entry of a journal. -/
structure Record where
  level : Record.Level
  message : String
deriving DecidableEq, Repr

/-- The record of the token that a turn starts with. -/
def ParseState.record (state : ParseState) : Record :=
  ⟨.trace, "dispatching on " ++ state.current.kind.name ++ " " ++ Text.quoted state.current.value⟩

/-- The record of a step; opening an expression goes unrecorded. -/
def Step.record? : Step → Option Record
  | .descend _ => none
  | .fold operator precedence =>
    some ⟨.trace, "folding " ++ operator ++ " at precedence " ++ toString precedence⟩

/-- The record of an event. -/
def Event.record (event : Event) : Record := ⟨.info, event.text⟩

/-- The record of a diagnostic. -/
def Diagnostic.record (diagnostic : Diagnostic) : Record := ⟨.error, diagnostic.message⟩

/-- The record of a token that is skipped after a diagnostic. -/
def Token.skippedRecord (token : Token) : Record :=
  ⟨.debug, "skipped " ++ Text.quoted token.value ++ " after error"⟩

/-- The records of one turn. -/
def Turn.journal : Turn → List Record
  | .separator start => [start.record]
  | .completed start item trace _ =>
    start.record :: trace.filterMap Step.record? ++ [item.event.record]
  | .abandoned start diagnostic trace after =>
    start.record :: trace.filterMap Step.record? ++ [diagnostic.record, after.current.skippedRecord]

/-- **The journal of a run:** the records of its turns, and that of the token at its end. -/
def Run.journal (run : Run) : List Record :=
  run.turns.flatMap Turn.journal ++ [run.final.record]

/-- **The journal of lexing a source:** one record, of the number of tokens or of the character that
begins none. -/
def Source.journal (source : Source) : List Record :=
  match Token.tokenize source with
  | .ok tokens =>
    [⟨.trace, "tokenized " ++ toString tokens.length ++ " tokens from " ++ source.name⟩]
  | .error diagnostic =>
    [⟨.debug, "unrecognised character " ++ Text.quoted diagnostic.cause.quotes ++ " at " ++
      toString (Token.stopOffset source.text.toList)⟩]

end OpLang
