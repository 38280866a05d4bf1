/-
**Token streams.**

A stream is a list of tokens that is read from the front and never runs out: it ends with a token of
kind `eof`, and there reading goes on yielding that token. The view of a stream is the list of
tokens still to come (`toList`), which is never empty; `current` is its head (`head?_toList`) and
`advance` its tail, unless nothing but the last token is left (`toList_advance`).
-/

import OpLang.Token

namespace OpLang

/-- The tokens still to come: those before the last one, and the last one. -/
structure TokenStream where
  /-- How many tokens have been read. -/
  consumed : Nat
  /-- The tokens to come before the last one. -/
  pending : List Token
  /-- The token that ends the stream. -/
  last : Token
  last_kind : last.kind = .eof
deriving DecidableEq

namespace TokenStream

/-! ### Making a stream -/

/-- The stream of a list of tokens. A list that does not end in an `eof` token is given one: at the
end of its last token, or in no source when the list is empty. -/
def ofList (tokens : List Token) : TokenStream :=
  match tokens.getLast? with
  | some token =>
    if ends : token.kind = .eof then ⟨0, tokens.dropLast, token, ends⟩
    else ⟨0, tokens, Token.atEnd token.span.stop, rfl⟩
  | none => ⟨0, [], Token.atEnd Position.unknown, rfl⟩

/-! ### Reading -/

/-- The tokens still to come. -/
def toList (stream : TokenStream) : List Token := stream.pending ++ [stream.last]

/-- The number of tokens still to come before the last one. -/
def remaining (stream : TokenStream) : Nat := stream.pending.length

/-- The token at the front. -/
def current (stream : TokenStream) : Token :=
  match stream.pending with
  | [] => stream.last
  | token :: _ => token

/-- The stream without the token at the front; the last token stays. -/
def advance (stream : TokenStream) : TokenStream :=
  match stream.pending with
  | [] => stream
  | _ :: rest => { stream with consumed := stream.consumed + 1, pending := rest }

/-! ### Facts -/

/-- The current token is the first of those to come. -/
theorem head?_toList (stream : TokenStream) : stream.toList.head? = some stream.current := by
  cases equal : stream.pending <;> simp [toList, current, equal]

/-- Advancing drops the first token to come, unless it is the last. -/
theorem toList_advance (stream : TokenStream) :
    stream.advance.toList = if stream.remaining = 0 then stream.toList else stream.toList.tail := by
  cases equal : stream.pending <;> simp [toList, advance, remaining, equal]

@[simp]
theorem remaining_advance (stream : TokenStream) :
    stream.advance.remaining = stream.remaining - 1 := by
  cases equal : stream.pending <;> simp [remaining, advance, equal]

/-- Where the current token is not an end, there is more to come than the last token. -/
theorem remaining_pos {stream : TokenStream} (more : stream.current.kind ≠ .eof) :
    0 < stream.remaining := by
  cases equal : stream.pending with
  | nil => simp [current, equal, stream.last_kind] at more
  | cons token rest => simp [remaining, equal]

/-- Tokens read and tokens to come are always as many. -/
theorem consumed_advance (stream : TokenStream) :
    stream.advance.consumed + stream.advance.remaining = stream.consumed + stream.remaining := by
  cases equal : stream.pending with
  | nil => simp [remaining, advance, equal]
  | cons token rest => simp [remaining, advance, equal]; omega

end TokenStream

end OpLang
