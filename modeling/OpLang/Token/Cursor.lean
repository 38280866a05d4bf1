/-
**A bare cursor over a source.**

The cursor is a byte offset, kept in sixty-four bits, that may be moved anywhere, also past the end
of the text or inside a character; there the text has no remainder. What would leave sixty-four bits
is refused: the cursor does not move so far (`advance?`), and no span ends there (`span?`).
-/

import OpLang.Source
import OpLang.Text.Bytes

namespace OpLang

/-- A byte offset into a source. -/
structure Cursor where
  source : Source
  offset : UInt64
deriving DecidableEq, Repr

namespace Cursor

/-- The cursor at the start of a source. -/
def atStart (source : Source) : Cursor := ⟨source, 0⟩

/-- Whether the offset `count` bytes further fits in sixty-four bits. -/
def reaches (cursor : Cursor) (count : Nat) : Bool :=
  cursor.offset.toNat + count < UInt64.size

/-- The cursor `count` bytes further. -/
def advance? (cursor : Cursor) (count : Nat) : Option Cursor :=
  if cursor.reaches count then
    some { cursor with offset := UInt64.ofNat (cursor.offset.toNat + count) }
  else none

/-- The text from the cursor on, if the cursor stands between two characters or at the end. -/
def remainder? (cursor : Cursor) : Option String :=
  (Text.dropBytes? cursor.offset.toNat cursor.source.text.toList).map String.ofList

/-- Whether nothing is left to read. -/
def isAtEnd (cursor : Cursor) : Bool :=
  Text.byteLength cursor.source.text.toList ≤ cursor.offset.toNat

/-- The position of the cursor. -/
def position (cursor : Cursor) : Position :=
  Position.ofNat cursor.offset.toNat cursor.source.name

/-- The span of the next `length` bytes. -/
def span? (cursor : Cursor) (length : Nat) : Option Span :=
  if cursor.reaches length then
    some (Span.ofNat cursor.offset.toNat length cursor.source.name)
  else none

/-- An advance adds to the offset exactly. -/
theorem offset_of_advance? {cursor after : Cursor} {count : Nat}
    (advanced : cursor.advance? count = some after) :
    after.offset.toNat = cursor.offset.toNat + count := by
  unfold advance? at advanced
  split at advanced
  · rename_i fits
    simp only [reaches, decide_eq_true_eq] at fits
    obtain rfl := Option.some.inj advanced
    exact UInt64.toNat_ofNat_of_lt' fits
  · cases advanced

end Cursor

end OpLang
