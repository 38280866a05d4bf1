/-
**From a source to its tokens.**

The tokens of a source are the tokens of its pieces, in order, and one token for its end. A source
in which some character begins no piece has no tokens; the diagnostic then quotes the first such
character where it stands.
-/

import OpLang.Diagnostic
import OpLang.Token.Lexeme

namespace OpLang.Token

/-- The byte offset where the pieces of a text end: its length, unless some character begins no
piece. -/
def stopOffset (text : List Char) : Nat :=
  Text.byteLength (Lexeme.joined (Lexeme.pieces text).1)

/-- **The tokens of a source.** -/
def tokenize (source : Source) : Except Diagnostic (List Token) :=
  let (lexemes, leftover) := Lexeme.pieces source.text.toList
  let stop := Position.ofNat (stopOffset source.text.toList) source.name
  match leftover with
  | [] => .ok (Lexeme.tokens source.name 0 lexemes ++ [atEnd stop])
  | c :: _ => .error ⟨.unrecognised (String.singleton c), stop⟩

end OpLang.Token
