/-
**Sources and positions in them.**

A source is a text with a name. A position is a byte offset, kept in thirty-two bits, together with
the name of the source that it counts in, and a span lies between two positions.
-/

namespace OpLang

/-- A text with the name that its positions carry. -/
structure Source where
  text : String
  name : String
deriving DecidableEq, Repr

/-- A text with the given name, or the name of the interactive shell when it has none. -/
def Source.named (text : String) (name : Option String) : Source :=
  ⟨text, name.getD "shell"⟩

/-- A byte offset into a named source. -/
structure Position where
  offset : UInt32
  source : String
deriving DecidableEq, Repr

/-- The position of what stands in no source. -/
def Position.unknown : Position := ⟨0, "<null>"⟩

/-- The position `offset` bytes into the source called `source`, modulo `2 ^ 32`. -/
def Position.ofNat (offset : Nat) (source : String) : Position :=
  ⟨UInt32.ofNat offset, source⟩

/-- The stretch of a source from one position to another. -/
structure Span where
  start : Position
  stop : Position
deriving DecidableEq, Repr

/-- The span of `length` bytes from `offset` on. -/
def Span.ofNat (offset length : Nat) (source : String) : Span :=
  ⟨Position.ofNat offset source, Position.ofNat (offset + length) source⟩

end OpLang
