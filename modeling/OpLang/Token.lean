/-
**Tokens.**

A token is its kind, its spelling and the span where it stands. The end of a text is a token too, of
kind `eof`, and its spelling is `EOF`.
-/

import OpLang.Source

namespace OpLang

/-- The kinds of tokens. An operator is any punctuation character that has no kind of its own. -/
inductive Token.Kind where
  | eof
  | number
  | identifier
  | openParen
  | closeParen
  | comma
  | semicolon
  | operator
  | defKeyword
  | externKeyword
deriving DecidableEq, Repr

/-- The name under which a kind is listed. -/
def Token.Kind.name : Token.Kind → String
  | .eof => "EOF"
  | .number => "Number"
  | .identifier => "Identifier"
  | .openParen => "OpenParen"
  | .closeParen => "CloseParen"
  | .comma => "Comma"
  | .semicolon => "Semicolon"
  | .operator => "Operator"
  | .defKeyword => "Def"
  | .externKeyword => "Extern"

/-- A classified piece of a source. -/
structure Token where
  kind : Token.Kind
  value : String
  span : Span
deriving DecidableEq, Repr

namespace Token

/-- The token at the end of a text. -/
def atEnd (position : Position) : Token :=
  ⟨.eof, "EOF", ⟨position, position⟩⟩

/-- The position where a token starts. -/
def start (token : Token) : Position := token.span.start

/-- Whether the spelling of a token of this kind is not fixed by the kind. -/
def Kind.isOpen (kind : Kind) : Bool :=
  kind == .identifier || kind == .number || kind == .operator

/-- The line that lists a token: its kind, and its spelling where the kind leaves it open. -/
def listing (token : Token) : String :=
  token.kind.name ++ " (" ++ (if token.kind.isOpen then token.value else "") ++ ")\n"

end Token

end OpLang
