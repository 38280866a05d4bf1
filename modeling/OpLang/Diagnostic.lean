/-
**Diagnostics.**

A diagnostic is a cause at a position. Every cause quotes the text at fault. Its `describe` is the
text of the cause alone, `Diagnostic.message` puts the position in front, and a `tip` says what
would have been right, where that can be said.
-/

import OpLang.Source
import OpLang.Text.Quoted

namespace OpLang

/-- Why a text, a token or a table entry is refused. -/
inductive Cause where
  /-- No token begins with this character. -/
  | unrecognised (character : String)
  /-- No expression begins with this token. -/
  | noExpression (token : String)
  /-- Something else was due where this token stands. -/
  | notDue (complaint token : String)
  /-- The spelling of this number token is no numeral. -/
  | badNumber (token : String)
  /-- This entry of a precedence table is not an operator with its precedence. -/
  | badEntry (entry : String)
deriving DecidableEq, Repr

namespace Cause

/-- The name of the kind of a cause. -/
def name : Cause → String
  | .unrecognised _ => "UnrecognisedToken"
  | .noExpression _ => "UnexpectedToken"
  | .notDue _ _ => "SyntaxError"
  | .badNumber _ => "NumberParseError"
  | .badEntry _ => "InvalidPrecedence"

/-- The text that a cause quotes. -/
def quotes : Cause → String
  | .unrecognised character => character
  | .noExpression token => token
  | .notDue _ token => token
  | .badNumber token => token
  | .badEntry entry => entry

/-- What a cause says before the text it quotes. -/
def headline : Cause → String
  | .unrecognised _ => "unrecognised token"
  | .noExpression _ => "unknown token when expecting an expression"
  | .notDue complaint _ => complaint
  | .badNumber _ => "error parsing number"
  | .badEntry _ => "invalid precedence entry"

/-- The text of a cause. -/
def describe (cause : Cause) : String :=
  cause.headline ++ ": " ++ Text.quoted cause.quotes

/-- What would have been right; a character that begins no token is beyond advice. -/
def tip : Cause → Option String
  | .unrecognised _ => none
  | .noExpression token =>
    some ("Unexpected token: `" ++ token ++ "`, expected a number, identifier or `(`")
  | .notDue complaint token => some ("Unexpected token: `" ++ token ++ "`, " ++ complaint)
  | .badNumber token => some ("Invalid number: `" ++ token ++ "`")
  | .badEntry entry =>
    some ("Invalid precedence entry `" ++ entry ++ "`, expected `<operator>:<precedence>`")

end Cause

/-- A cause at a position. -/
structure Diagnostic where
  cause : Cause
  position : Position
deriving DecidableEq, Repr

namespace Diagnostic

/-- The text of a diagnostic on one line: its source, its offset and its cause. -/
def message (diagnostic : Diagnostic) : String :=
  diagnostic.position.source ++ ":" ++ toString diagnostic.position.offset.toNat ++ ": " ++
    diagnostic.cause.describe

/-- The name of the cause, with the tip in parentheses where there is one. -/
def title (diagnostic : Diagnostic) : String :=
  "Error: " ++ diagnostic.cause.name ++
    match diagnostic.cause.tip with
    | none => ""
    | some tip => " (" ++ tip ++ ")"

end Diagnostic

end OpLang
