/-
**Double-precision numbers.**

A double is its sign and its rank, where the ranks count the non-negative doubles upward from zero:
rank `0` is zero, rank `1` the least positive double and `infinityRank` infinity. Every double is a
whole number of units of `2 ^ -1074`, and `units` gives that number. Rounding an exact quotient
takes the nearer of the two doubles around it and, of two equally near, the one of even rank; from
half a step above the greatest finite double on, the result is infinity.
-/

namespace OpLang

namespace Binary64

/-- The rank of infinity: there are `infinityRank` finite doubles from zero upward. -/
def infinityRank : Nat := 2047 * Nat.pow 2 52

end Binary64

/-- A double: not a number, or a sign with the rank of the absolute value. -/
inductive Binary64 where
  | nan
  | ranked (negative : Bool) (rank : Nat) (bounded : rank ≤ Binary64.infinityRank)
deriving DecidableEq, Repr

namespace Binary64

instance : Inhabited Binary64 := ⟨nan⟩

/-! ### Ranks and the values at them -/

/-- The value at a rank in units of `2 ^ -1074`. Up to rank `2 ^ 53` neighbours are one unit apart,
and each further `2 ^ 52` ranks double the distance. -/
def units (rank : Nat) : Nat :=
  if rank < Nat.pow 2 53 then rank
  else
    let doublings := rank / Nat.pow 2 52 - 1
    (rank - doublings * Nat.pow 2 52) * Nat.pow 2 doublings

/-- The greatest rank whose value is at most `amount` units. -/
def rankBelow (amount : Nat) : Nat :=
  if amount < Nat.pow 2 53 then amount
  else
    let doublings := amount.log2 - 52
    doublings * Nat.pow 2 52 + amount / Nat.pow 2 doublings

/-! ### Rounding -/

/-- The rank nearest to the quotient `num / den`; of two equally near, the even one. -/
def nearestRank (num den : Nat) : Nat :=
  let scaled := num * Nat.pow 2 1074
  let below := rankBelow (scaled / den)
  let middle := (units below + units (below + 1)) * den
  if 2 * scaled < middle then below
  else if middle < 2 * scaled then below + 1
  else below + below % 2

/-- The rank nearest to `digits * 10 ^ exponent`. -/
def decimalRank (digits : Nat) : Int → Nat
  | .ofNat power => nearestRank (digits * Nat.pow 10 power) 1
  | .negSucc power => nearestRank digits (Nat.pow 10 (power + 1))

/-- The double nearest to `digits * 10 ^ exponent` with the given sign. -/
def ofDecimal (negative : Bool) (digits : Nat) (exponent : Int) : Binary64 :=
  ranked negative (min (decimalRank digits exponent) infinityRank) (Nat.min_le_right _ _)

/-- Zero with the given sign. -/
def zero (negative : Bool) : Binary64 := ranked negative 0 (Nat.zero_le _)

/-- Infinity with the given sign. -/
def infinity (negative : Bool) : Binary64 := ranked negative infinityRank (Nat.le_refl _)

/-! ### Comparing and storing -/

/-- Numeric equality: not-a-number equals nothing, and the two zeros are equal. -/
def numericEq : Binary64 → Binary64 → Bool
  | ranked negative rank _, ranked negative' rank' _ =>
    rank == rank' && (negative == negative' || rank == 0)
  | _, _ => false

/-- The double stored in sixty-four bits: the sign bit above the rank. -/
def ofBits (bits : UInt64) : Binary64 :=
  if bounded : bits.toNat % Nat.pow 2 63 ≤ infinityRank then
    ranked (Nat.pow 2 63 ≤ bits.toNat) (bits.toNat % Nat.pow 2 63) bounded
  else nan

/-- The sixty-four bits of a double that is a number. -/
def bits? : Binary64 → Option UInt64
  | nan => none
  | ranked negative rank _ => some (UInt64.ofNat ((if negative then Nat.pow 2 63 else 0) + rank))

/-! ### Small facts -/

/-- A decimal never rounds to not-a-number. -/
theorem ofDecimal_ne_nan (negative : Bool) (digits : Nat) (exponent : Int) :
    ofDecimal negative digits exponent ≠ nan := nofun

/-- Not-a-number differs from itself. -/
theorem numericEq_nan (value : Binary64) : numericEq nan value = false := rfl

/-- Every double that is a number equals itself. -/
theorem numericEq_self {value : Binary64} (number : value ≠ nan) :
    numericEq value value = true := by
  cases value with
  | nan => exact absurd rfl number
  | ranked negative rank bounded => simp [numericEq]

end Binary64

end OpLang
