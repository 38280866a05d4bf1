/-
**Reading numerals.**

A numeral is an optional sign and then decimal digits with at most one point among or beside them
and an optional exponent, or one of the words `inf`, `infinity` and `nan` in any case. At least one
digit is needed beside the point, and one in an exponent. The value is the double nearest to what is
written.
-/

import OpLang.Number.Binary64

namespace OpLang.Numeral

/-- The ASCII decimal digits. -/
def isDigit (c : Char) : Bool :=
  '0' ≤ c && c ≤ '9'

/-- The number that a run of digits writes, continuing from `start`. -/
def digitsValue (start : Nat) (digits : List Char) : Nat :=
  digits.foldl (fun value digit => 10 * value + (digit.toNat - '0'.toNat)) start

/-- An optional sign: whether it is a minus, and what follows it. -/
def readSign : List Char → Bool × List Char
  | '-' :: rest => (true, rest)
  | '+' :: rest => (false, rest)
  | text => (false, text)

/-- What may follow the digits: nothing, or an exponent up to the end. -/
def readExponent? : List Char → Option Int
  | [] => some 0
  | mark :: rest =>
    if mark = 'e' ∨ mark = 'E' then
      let (negative, digits) := readSign rest
      if digits ≠ [] ∧ digits.all isDigit then
        some (if negative then -(digitsValue 0 digits : Int) else digitsValue 0 digits)
      else none
    else none

/-- The double nearest to `digits * 10 ^ exponent`. A written exponent may be far beyond what a
double can hold; the two first cases answer for it without raising ten to it, since `digits` has at
most `digits.log2 + 1` decimal places. -/
def nearest (negative : Bool) (digits : Nat) (exponent : Int) : Binary64 :=
  if digits = 0 ∨ exponent + (digits.log2 + 1) ≤ -324 then Binary64.zero negative
  else if 310 ≤ exponent then Binary64.infinity negative
  else Binary64.ofDecimal negative digits exponent

/-- A numeral without its sign, as the double nearest to it. -/
def readUnsigned? (negative : Bool) (text : List Char) : Option Binary64 :=
  let whole := text.takeWhile isDigit
  let rest := text.dropWhile isDigit
  let (fraction, rest) :=
    match rest with
    | '.' :: more => (more.takeWhile isDigit, more.dropWhile isDigit)
    | _ => ([], rest)
  if whole.isEmpty && fraction.isEmpty then none
  else (readExponent? rest).map fun exponent =>
    nearest negative (digitsValue (digitsValue 0 whole) fraction) (exponent - fraction.length)

/-- The words for the doubles that digits cannot write. -/
def readWord? (negative : Bool) (text : List Char) : Option Binary64 :=
  let word := text.map Char.toLower
  if word = "inf".toList ∨ word = "infinity".toList then some (Binary64.infinity negative)
  else if word = "nan".toList then some .nan
  else none

/-- **The double that a numeral writes,** if the text is a numeral. -/
def read? (text : List Char) : Option Binary64 :=
  let (negative, rest) := readSign text
  (readUnsigned? negative rest).or (readWord? negative rest)

end OpLang.Numeral
