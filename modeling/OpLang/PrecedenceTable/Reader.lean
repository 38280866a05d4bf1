/-
**Reading precedence tables.**

A table is written as entries between commas. An entry is an operator, a colon and a precedence; its
last colon counts, so that an operator may hold colons itself. Blanks around entries, operators and
precedences do not count, and neither do empty entries. The first entry that is not of this form is
reported. Of two entries for one operator the later holds.
-/

import OpLang.Diagnostic
import OpLang.Number.Numeral
import OpLang.PrecedenceTable
import OpLang.Text.Blank

namespace OpLang.PrecedenceTable

/-- The stretch of a text before its first comma, and the stretches between and after its commas. -/
def betweenCommas : List Char → List Char × List (List Char)
  | [] => ([], [])
  | c :: rest =>
    let (first, others) := betweenCommas rest
    if c = ',' then ([], first :: others) else (c :: first, others)

/-- The entries of a table's text: what stands between the commas, trimmed, unless it is empty. -/
def entryTexts (text : List Char) : List (List Char) :=
  let (first, others) := betweenCommas text
  ((first :: others).map Text.trim).filter (!·.isEmpty)

/-- The text before and after the last colon. -/
def splitAtLastColon? : List Char → Option (List Char × List Char)
  | [] => none
  | c :: rest =>
    match splitAtLastColon? rest with
    | some (before, behind) => some (c :: before, behind)
    | none => if c = ':' then some ([], rest) else none

/-- A written precedence: digits, after a plus sign or none, of a number below `2 ^ 16`. -/
def readPrecedence? (text : List Char) : Option UInt16 :=
  let digits :=
    match text with
    | '+' :: rest => rest
    | _ => text
  if digits ≠ [] ∧ digits.all Numeral.isDigit ∧ Numeral.digitsValue 0 digits < Nat.pow 2 16 then
    some (UInt16.ofNat (Numeral.digitsValue 0 digits))
  else none

/-- An entry's operator and precedence. -/
def readEntry? (entry : List Char) : Option (String × UInt16) :=
  match splitAtLastColon? entry with
  | none => none
  | some (before, behind) =>
    let operator := Text.trim before
    if operator = [] then none
    else (readPrecedence? (Text.trim behind)).map fun precedence =>
      (String.ofList operator, precedence)

/-- The table with the entries of the given texts inserted in turn. -/
def insertEntries (table : PrecedenceTable) : List (List Char) → Except Diagnostic PrecedenceTable
  | [] => .ok table
  | entry :: others =>
    match readEntry? entry with
    | some (operator, precedence) => (table.insert operator precedence).insertEntries others
    | none => .error ⟨.badEntry (String.ofList entry), Position.unknown⟩

/-- **The table that a text writes.** -/
def read (text : String) : Except Diagnostic PrecedenceTable :=
  empty.insertEntries (entryTexts text.toList)

end OpLang.PrecedenceTable
