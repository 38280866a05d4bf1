/-
**Lines of a text.**

A line ends with its newline, and the last line of a text is what follows its last newline, possibly
nothing. `locate` finds the line that holds a byte offset; an offset past the end stands at the end
of the last line. The lines of a text join to the text (`lines_join`).
-/

import OpLang.Text.Bytes

namespace OpLang.Text

/-- The first line of a text and the lines after it. -/
def lines : List Char → List Char × List (List Char)
  | [] => ([], [])
  | c :: rest =>
    let (first, others) := lines rest
    if c = '\n' then (['\n'], first :: others) else (c :: first, others)

/-- Where an offset lies: the line's number counted from one, its text, and the offset in it. -/
structure Place where
  line : Nat
  text : List Char
  offset : Nat
deriving DecidableEq, Repr

/-- The place of `offset` in the lines `first :: others`, of which `first` has the number `line`. -/
def placeIn (line : Nat) (first : List Char) : List (List Char) → Nat → Place
  | [], offset => ⟨line, first, min offset (byteLength first)⟩
  | second :: others, offset =>
    if offset < byteLength first then ⟨line, first, offset⟩
    else placeIn (line + 1) second others (offset - byteLength first)

/-- **The place of a byte offset** in a text. -/
def locate (text : List Char) (offset : Nat) : Place :=
  let (first, others) := lines text
  placeIn 1 first others offset

/-- The lines of a text join to the text. -/
theorem lines_join (text : List Char) : (lines text).1 ++ (lines text).2.flatten = text := by
  induction text with
  | nil => rfl
  | cons c rest ih =>
    by_cases newline : c = '\n' <;> simp [lines, newline, ih]

end OpLang.Text
