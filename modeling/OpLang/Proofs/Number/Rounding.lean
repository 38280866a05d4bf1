/-
**Rounding to doubles.**

The values at the ranks grow strictly (`units_strictMono`), and the rank below an amount is the last one
whose value is not above it (`le_rankBelow_iff`). So what lies exactly on a double is rounded to it
(`nearestRank_of_exact`), and rounding looks at a quotient as a number, whatever its terms are
(`nearestRank_mul_right`): a decimal may be given more or fewer zeros at its end (`decimalRank_shift`).

Reading answers for numerals that are far too small or too great without forming the quotient. The answer
is the nearest double there, too (`nearest_eq_ofDecimal`).
-/

import Mathlib.Algebra.Group.Nat.Defs
import Mathlib.Order.Monotone.Basic
import OpLang.Number.Numeral

namespace OpLang.Binary64

/-! ### Values at ranks -/

/-- From `2 ^ 52` on, a rank is a number of doublings and a mantissa of fifty-three bits. -/
theorem exists_mantissa {rank : Nat} (least : 2 ^ 52 ≤ rank) :
    ∃ doublings mantissa, rank = doublings * 2 ^ 52 + mantissa ∧
      2 ^ 52 ≤ mantissa ∧ mantissa < 2 ^ 53 :=
  ⟨rank / 2 ^ 52 - 1, rank - (rank / 2 ^ 52 - 1) * 2 ^ 52, by omega⟩

section Mantissa

variable {doublings mantissa : Nat} (least : 2 ^ 52 ≤ mantissa) (below : mantissa < 2 ^ 53)

include least below

theorem units_of_mantissa : units (doublings * 2 ^ 52 + mantissa) = mantissa * 2 ^ doublings := by
  unfold units
  simp only [Nat.pow_eq]
  split
  case isTrue small =>
    obtain rfl : doublings = 0 := by omega
    simp
  case isFalse great =>
    have quotient : (doublings * 2 ^ 52 + mantissa) / 2 ^ 52 - 1 = doublings := by omega
    rw [quotient, Nat.add_sub_cancel_left]

/-- The distance to the next double is doubled as often as the mantissa is. -/
theorem units_succ_of_mantissa :
    units (doublings * 2 ^ 52 + mantissa + 1) = (mantissa + 1) * 2 ^ doublings := by
  by_cases further : mantissa + 1 < 2 ^ 53
  · rw [Nat.add_assoc, units_of_mantissa (by omega) further]
  · have carried : doublings * 2 ^ 52 + mantissa + 1 = (doublings + 1) * 2 ^ 52 + 2 ^ 52 := by omega
    have full : mantissa + 1 = 2 ^ 52 * 2 := by omega
    rw [carried, units_of_mantissa (Nat.le_refl _) (by omega), full, Nat.mul_assoc,
      ← Nat.pow_succ']

end Mantissa

theorem units_of_small {rank : Nat} (small : rank < 2 ^ 53) : units rank = rank := by
  unfold units
  simp only [Nat.pow_eq]
  rw [if_pos small]

theorem units_strictMono : StrictMono units := by
  refine strictMono_nat_of_lt_succ fun rank => ?_
  by_cases least : 2 ^ 52 ≤ rank
  · obtain ⟨doublings, mantissa, rfl, least, below⟩ := exists_mantissa least
    rw [units_of_mantissa least below, units_succ_of_mantissa least below]
    exact Nat.mul_lt_mul_of_pos_right (Nat.lt_succ_self mantissa) (Nat.two_pow_pos doublings)
  · rw [units_of_small (by omega), units_of_small (by omega)]
    exact Nat.lt_succ_self rank

/-- An amount lies between the values at the rank below it and at the next one. -/
theorem units_rankBelow (amount : Nat) :
    units (rankBelow amount) ≤ amount ∧ amount < units (rankBelow amount + 1) := by
  by_cases small : amount < 2 ^ 53
  · have itself : rankBelow amount = amount := by
      unfold rankBelow
      simp only [Nat.pow_eq]
      rw [if_pos small]
    rw [itself, units_of_small small]
    exact ⟨Nat.le_refl amount, by
      have := units_strictMono (Nat.lt_succ_self amount)
      rwa [units_of_small small] at this⟩
  · have nonzero : amount ≠ 0 := by omega
    have bits : 53 ≤ amount.log2 := (Nat.le_log2 nonzero).mpr (by omega)
    obtain ⟨doublings, enough⟩ : ∃ doublings, amount.log2 = 52 + doublings :=
      ⟨amount.log2 - 52, by omega⟩
    have least : 2 ^ 52 ≤ amount / 2 ^ doublings := by
      rw [Nat.le_div_iff_mul_le (Nat.two_pow_pos doublings), ← Nat.pow_add, ← enough]
      exact Nat.log2_self_le nonzero
    have below : amount / 2 ^ doublings < 2 ^ 53 := by
      rw [Nat.div_lt_iff_lt_mul (Nat.two_pow_pos doublings), ← Nat.pow_add,
        show 53 + doublings = amount.log2 + 1 by omega]
      exact Nat.lt_log2_self
    have split : rankBelow amount = doublings * 2 ^ 52 + amount / 2 ^ doublings := by
      unfold rankBelow
      simp only [Nat.pow_eq]
      rw [if_neg small, enough, Nat.add_sub_cancel_left]
    rw [split, units_of_mantissa least below, units_succ_of_mantissa least below]
    exact ⟨Nat.div_mul_le_self amount _,
      (Nat.div_lt_iff_lt_mul (Nat.two_pow_pos doublings)).mp (Nat.lt_succ_self _)⟩

/-- **The rank below an amount is the last whose value is not above it.** -/
theorem le_rankBelow_iff {rank amount : Nat} : rank ≤ rankBelow amount ↔ units rank ≤ amount := by
  obtain ⟨notAbove, next⟩ := units_rankBelow amount
  refine ⟨fun before => ?_, fun value => ?_⟩
  · exact Nat.le_trans (units_strictMono.monotone before) notAbove
  · exact Nat.le_of_lt_succ (units_strictMono.lt_iff_lt.mp (Nat.lt_of_le_of_lt value next))

theorem rankBelow_units (rank : Nat) : rankBelow (units rank) = rank := by
  refine Nat.le_antisymm ?_ (le_rankBelow_iff.mpr (Nat.le_refl _))
  exact units_strictMono.le_iff_le.mp (le_rankBelow_iff.mp (Nat.le_refl _))

/-! ### Rounding quotients -/

variable {num den rank : Nat}

/-- **What lies on a double is rounded to it.** -/
theorem nearestRank_of_exact (positive : 0 < den) (exact : num * Nat.pow 2 1074 = units rank * den) :
    nearestRank num den = rank := by
  have quotient : units rank * den / den = units rank := Nat.mul_div_cancel _ positive
  have next : units rank * den < units (rank + 1) * den :=
    Nat.mul_lt_mul_of_pos_right (units_strictMono (Nat.lt_succ_self rank)) positive
  simp only [nearestRank, exact, quotient, rankBelow_units, Nat.add_mul]
  rw [if_pos (by omega)]

/-- **Rounding looks at a quotient as a number.** -/
theorem nearestRank_mul_right {factor : Nat} (positive : 0 < factor) (num den : Nat) :
    nearestRank (num * factor) (den * factor) = nearestRank num den := by
  have double : ∀ amount, 2 * (amount * factor) = 2 * amount * factor := fun amount =>
    (Nat.mul_assoc 2 amount factor).symm
  simp only [nearestRank, Nat.mul_right_comm num factor, ← Nat.mul_assoc _ den factor, double,
    Nat.mul_div_mul_right _ _ positive, Nat.mul_lt_mul_right positive]

/-- Less than half of the least double is rounded to zero. -/
theorem nearestRank_of_small (small : 2 * (num * Nat.pow 2 1074) < den) : nearestRank num den = 0 := by
  have quotient : num * Nat.pow 2 1074 / den = 0 := Nat.div_eq_of_lt (by omega)
  have zero : units 0 = 0 := units_of_small (by decide)
  have one : units 1 = 1 := units_of_small (by decide)
  have below : rankBelow 0 = 0 := zero ▸ rankBelow_units 0
  simp only [nearestRank, quotient, below, zero, one]
  rw [if_pos (by omega)]

/-- What is not below a double is not rounded below it. -/
theorem le_nearestRank (positive : 0 < den) (great : units rank * den ≤ num * Nat.pow 2 1074) :
    rank ≤ nearestRank num den := by
  have below : rank ≤ rankBelow (num * Nat.pow 2 1074 / den) :=
    le_rankBelow_iff.mpr ((Nat.le_div_iff_mul_le positive).mpr great)
  unfold nearestRank
  dsimp only
  split
  · exact below
  · split <;> omega

/-! ### Rounding decimals -/

theorem decimalRank_natCast (digits power : Nat) :
    decimalRank digits power = nearestRank (digits * Nat.pow 10 power) 1 := rfl

theorem decimalRank_negSucc (digits power : Nat) :
    decimalRank digits (.negSucc power) = nearestRank digits (Nat.pow 10 (power + 1)) := rfl

/-- A decimal is rounded as any quotient of which the tens above and below make its exponent. -/
theorem decimalRank_eq_nearestRank (digits above below : Nat) :
    decimalRank digits (above - below) = nearestRank (digits * 10 ^ above) (10 ^ below) := by
  have positive (power : Nat) : 0 < 10 ^ power := Nat.pow_pos (by decide)
  rcases Nat.le_total below above with more | fewer
  · obtain ⟨power, rfl⟩ := Nat.exists_eq_add_of_le more
    have exponent : ((below + power : Nat) : Int) - below = power := by omega
    rw [exponent, decimalRank_natCast, ← nearestRank_mul_right (positive below), Nat.one_mul, Nat.pow_eq,
      Nat.mul_assoc, ← Nat.pow_add, Nat.add_comm power]
  · obtain ⟨power, rfl⟩ := Nat.exists_eq_add_of_le fewer
    cases power with
    | zero =>
      have exponent : (above : Int) - (above + 0 : Nat) = (0 : Nat) := by omega
      rw [exponent, decimalRank_natCast, ← nearestRank_mul_right (positive above), Nat.one_mul, Nat.pow_eq,
        Nat.pow_zero, Nat.mul_one, Nat.add_zero]
    | succ power =>
      have exponent : (above : Int) - (above + (power + 1) : Nat) = .negSucc power := by omega
      rw [exponent, decimalRank_negSucc, ← nearestRank_mul_right (positive above), Nat.pow_eq, ← Nat.pow_add,
        Nat.add_comm above]

/-- **Zeros at the end of a decimal change nothing.** -/
theorem decimalRank_shift (digits power : Nat) (exponent : Int) :
    decimalRank (digits * 10 ^ power) (exponent - power) = decimalRank digits exponent := by
  obtain ⟨above, below, rfl⟩ : ∃ above below : Nat, exponent = above - below :=
    ⟨exponent.toNat, (-exponent).toNat, by omega⟩
  have shifted : (above : Int) - below - power = above - (below + power : Nat) := by omega
  rw [shifted, decimalRank_eq_nearestRank, decimalRank_eq_nearestRank, Nat.mul_right_comm, Nat.pow_add,
    nearestRank_mul_right (Nat.pow_pos (by decide))]

theorem ofDecimal_shift (negative : Bool) (digits power : Nat) (exponent : Int) :
    ofDecimal negative (digits * 10 ^ power) (exponent - power) = ofDecimal negative digits exponent := by
  simp only [ofDecimal, decimalRank_shift]

end OpLang.Binary64

namespace OpLang.Numeral

open Binary64

/-- A decimal that is far too small is rounded to zero. -/
theorem decimalRank_of_small {digits : Nat} {exponent : Int}
    (small : digits = 0 ∨ exponent + (digits.log2 + 1) ≤ -324) : decimalRank digits exponent = 0 := by
  obtain ⟨above, below, rfl⟩ : ∃ above below : Nat, exponent = above - below :=
    ⟨exponent.toNat, (-exponent).toNat, by omega⟩
  rw [decimalRank_eq_nearestRank]
  refine nearestRank_of_small ?_
  rcases small with rfl | small
  · simp only [Nat.zero_mul, Nat.mul_zero]
    exact Nat.pow_pos (by decide)
  · obtain ⟨tiny, least, places⟩ : ∃ tiny, 2 * Nat.pow 2 1074 ≤ 10 ^ tiny ∧
        digits.log2 + 1 + (above + tiny) ≤ below := ⟨324, by decide +kernel, by omega⟩
    have ten : digits < 10 ^ (digits.log2 + 1) :=
      Nat.lt_of_lt_of_le Nat.lt_log2_self (Nat.pow_le_pow_left (by decide) _)
    have positive : 0 < Nat.pow 2 1074 := by decide +kernel
    generalize Nat.pow 2 1074 = scale at positive least ⊢
    calc 2 * (digits * 10 ^ above * scale)
        = digits * (10 ^ above * (2 * scale)) := by ac_rfl
      _ < 10 ^ (digits.log2 + 1) * (10 ^ above * (2 * scale)) :=
          Nat.mul_lt_mul_of_pos_right ten
            (Nat.mul_pos (Nat.pow_pos (by decide)) (Nat.mul_pos Nat.two_pos positive))
      _ ≤ 10 ^ (digits.log2 + 1) * (10 ^ above * 10 ^ tiny) :=
          Nat.mul_le_mul_left _ (Nat.mul_le_mul_left _ least)
      _ = 10 ^ (digits.log2 + 1 + (above + tiny)) := by rw [← Nat.pow_add, ← Nat.pow_add]
      _ ≤ 10 ^ below := Nat.pow_le_pow_right (by decide) places

/-- A decimal that is far too great is rounded to infinity. -/
theorem infinityRank_le_decimalRank {digits : Nat} {exponent : Int} (given : digits ≠ 0)
    (great : 310 ≤ exponent) : infinityRank ≤ decimalRank digits exponent := by
  obtain ⟨least, top, power, rfl⟩ : ∃ least, units infinityRank * 1 ≤ 10 ^ least * Nat.pow 2 1074 ∧
      ∃ power : Nat, exponent = (least + power : Nat) :=
    ⟨310, by decide +kernel, (exponent - 310).toNat, by omega⟩
  rw [decimalRank_natCast]
  refine le_nearestRank Nat.one_pos (Nat.le_trans top (Nat.mul_le_mul_right _ ?_))
  calc 10 ^ least ≤ 10 ^ (least + power) := Nat.pow_le_pow_right (by decide) (Nat.le_add_right _ _)
    _ ≤ digits * 10 ^ (least + power) := Nat.le_mul_of_pos_left _ (Nat.pos_of_ne_zero given)

/-- **Reading always gives the nearest double.** -/
theorem nearest_eq_ofDecimal (negative : Bool) (digits : Nat) (exponent : Int) :
    nearest negative digits exponent = ofDecimal negative digits exponent := by
  unfold nearest
  split
  case isTrue small =>
    simp only [ofDecimal, zero, decimalRank_of_small small, Nat.zero_min]
  case isFalse notSmall =>
    split
    case isTrue great =>
      have infinite := infinityRank_le_decimalRank (fun none => notSmall (.inl none)) great
      simp only [ofDecimal, infinity, Nat.min_eq_right infinite]
    case isFalse => rfl

end OpLang.Numeral
