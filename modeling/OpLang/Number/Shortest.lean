/-
**Writing doubles with the fewest digits.**

A finite double is written with the fewest decimal digits that round back to it; of the decimals
with that many digits the nearest is taken, and of two equally near the greater. The text is
positional, without an exponent at any size, and a fraction that is zero is left out with its point.
Zero keeps its sign.
-/

import OpLang.Number.Binary64

namespace OpLang

/-- The decimal `digits * 10 ^ exponent`. -/
structure Decimal where
  digits : Nat
  exponent : Int
deriving DecidableEq, Repr

namespace Decimal

/-! ### Choosing the digits -/

/-- The number of decimal digits of a natural number. -/
def digitCount (n : Nat) : Nat := (Nat.toDigits 10 n).length

/-- The power of ten just above the value of a positive rank: the value is below `10 ^ magnitude`
and at least a tenth of it. No positive double is below `10 ^ -324`. -/
def magnitude (rank : Nat) : Int :=
  digitCount (Binary64.units rank * Nat.pow 10 324 / Nat.pow 2 1074) - 324

/-- The value at `rank` divided by `10 ^ exponent`, as a quotient. -/
def scaled (rank : Nat) : Int → Nat × Nat
  | .ofNat power => (Binary64.units rank, Nat.pow 2 1074 * Nat.pow 10 power)
  | .negSucc power => (Binary64.units rank * Nat.pow 10 (power + 1), Nat.pow 2 1074)

/-- Whether a decimal rounds to the double at `rank`. -/
def readsBack (rank : Nat) (decimal : Decimal) : Bool :=
  Binary64.decimalRank decimal.digits decimal.exponent == rank

/-- The better of the two multiples of `10 ^ exponent` around the value at `rank`, if one of them
rounds back to it. -/
def onGrid? (rank : Nat) (exponent : Int) : Option Decimal :=
  let (num, den) := scaled rank exponent
  let lower : Decimal := ⟨num / den, exponent⟩
  let upper : Decimal := ⟨num / den + 1, exponent⟩
  match readsBack rank lower, readsBack rank upper with
  | false, false => none
  | true, false => some lower
  | false, true => some upper
  | true, true => if 2 * (num % den) < den then some lower else some upper

/-- All digits of the value at `rank`. -/
def exact (rank : Nat) : Decimal :=
  ⟨Binary64.units rank * Nat.pow 5 1074, -1074⟩

/-- **The shortest decimal** that rounds to the finite double at `rank`: the first hit with one
digit, two digits, and so on. -/
def shortest (rank : Nat) : Decimal :=
  let hit := (List.range 17).findSome? fun index : Nat => onGrid? rank (magnitude rank - index - 1)
  hit.getD (exact rank)

/-! ### Positional text -/

/-- The fraction digits of `digits / 10 ^ places`, with zeros in front to fill the places. -/
def fractionDigits (digits places : Nat) : List Char :=
  let written := Nat.toDigits 10 (digits % Nat.pow 10 places)
  List.replicate (places - written.length) '0' ++ written

/-- The digits without trailing zeros. -/
def stripZeros (text : List Char) : List Char :=
  (text.reverse.dropWhile (· == '0')).reverse

/-- A decimal written without an exponent. -/
def positional : Decimal → List Char
  | ⟨digits, .ofNat power⟩ => Nat.toDigits 10 (digits * Nat.pow 10 power)
  | ⟨digits, .negSucc power⟩ =>
    let fraction := stripZeros (fractionDigits digits (power + 1))
    let whole := Nat.toDigits 10 (digits / Nat.pow 10 (power + 1))
    if fraction.isEmpty then whole else whole ++ '.' :: fraction

end Decimal

/-- The text of a non-negative double that is a number. -/
def Binary64.magnitudeText (rank : Nat) : List Char :=
  if rank = 0 then ['0']
  else if rank = Binary64.infinityRank then ['i', 'n', 'f']
  else (Decimal.shortest rank).positional

/-- **The text of a double.** -/
def Binary64.text : Binary64 → List Char
  | .nan => ['N', 'a', 'N']
  | .ranked negative rank _ =>
    if negative then '-' :: Binary64.magnitudeText rank else Binary64.magnitudeText rank

end OpLang
