/-
**Diagnostics with the line they point at.**

The excerpt of a diagnostic is its title, the name of its source, and the line of the text where it
stands, without indentation and trailing blanks, above a caret. The caret stands below the character
at the diagnostic's offset: its column counts the characters between the line's indentation and the
offset, whatever their width in bytes.
-/

import OpLang.Diagnostic
import OpLang.Text.Blank
import OpLang.Text.Line

namespace OpLang.Diagnostic

/-- The characters that indent a line. -/
def isIndent (c : Char) : Bool := c == ' ' || c == '\t'

/-- The number of characters between a line's indentation and a byte offset in it; none where the
offset lies in the indentation or inside a character. -/
def caretColumn (line : List Char) (offset : Nat) : Nat :=
  let indent := min (Text.byteLength (line.takeWhile isIndent)) offset
  match (Text.dropBytes? indent line).bind (Text.takeBytes? (offset - indent)) with
  | some between => between.length
  | none => 0

/-- `count` copies of a character as a text. -/
def repeated (count : Nat) (c : Char) : String :=
  String.ofList (List.replicate count c)

/-- **The excerpt of a diagnostic** from the text of its source, each line ended by a newline. -/
def excerpt (diagnostic : Diagnostic) (text : String) : String :=
  let place := Text.locate text.toList diagnostic.position.offset.toNat
  let number := toString place.line
  let margin := repeated (number.length + 1) ' ' ++ "|"
  let shown := Text.trimEnd (place.text.dropWhile isIndent)
  diagnostic.title ++ "\n" ++
    "-> " ++ diagnostic.position.source ++ "\n" ++
    margin ++ "\n" ++
    number ++ " | " ++ String.ofList shown ++ "\n" ++
    margin ++ " " ++ repeated (caretColumn place.text place.offset) '-' ++ "^\n"

end OpLang.Diagnostic
