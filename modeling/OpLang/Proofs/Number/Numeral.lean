/-
**Numerals are read.**

A numeral of a source is digits with one point at most and at least one digit. It has no sign, no
exponent and nothing behind its digits, so it is always read (`IsNumeral.exists_read`), and as a double
that is a number and not negative: rounding keeps the sign.
-/

import Mathlib.Algebra.Group.Nat.Defs
import Mathlib.Data.List.TakeWhile
import OpLang.Proofs.Token.Spelling

namespace OpLang

/-! ### Doubles that are not negative -/

namespace Binary64

/-- Whether a double is a number without a minus. -/
inductive IsNonnegative : Binary64 → Prop where
  | ranked (rank : Nat) (bounded : rank ≤ infinityRank) : IsNonnegative (.ranked false rank bounded)

end Binary64

/-! ### Reading -/

namespace Numeral

variable {digits fraction : List Char}

/-- Rounding a decimal keeps its sign. -/
theorem nearest_isNonnegative (digits : Nat) (exponent : Int) :
    (nearest false digits exponent).IsNonnegative := by
  unfold nearest
  split
  · exact .ranked _ _
  · split
    · exact .ranked _ _
    · exact .ranked _ _

/-- Digits alone are read as what they write. -/
theorem readUnsigned?_digits (given : digits ≠ []) (inside : ∀ c ∈ digits, isDigit c = true)
    (negative : Bool) :
    readUnsigned? negative digits = some (nearest negative (digitsValue 0 digits) 0) := by
  have whole : digits.takeWhile isDigit = digits := List.takeWhile_eq_self_iff.mpr inside
  have rest : digits.dropWhile isDigit = [] := List.dropWhile_eq_nil_iff.mpr inside
  unfold readUnsigned?
  simp [whole, rest, given, readExponent?, digitsValue]

/-- Digits around a point are read as what they write, if there are any. -/
theorem readUnsigned?_pointed (given : digits ≠ [] ∨ fraction ≠ [])
    (inside : ∀ c ∈ digits, isDigit c = true) (behind : ∀ c ∈ fraction, isDigit c = true)
    (negative : Bool) :
    readUnsigned? negative (digits ++ '.' :: fraction) =
      some (nearest negative (digitsValue (digitsValue 0 digits) fraction) (-fraction.length)) := by
  have noDigit : isDigit '.' = false := by decide
  have whole : (digits ++ '.' :: fraction).takeWhile isDigit = digits := by
    rw [List.takeWhile_append_of_pos inside, List.takeWhile_cons, noDigit]
    exact List.append_nil _
  have rest : (digits ++ '.' :: fraction).dropWhile isDigit = '.' :: fraction := by
    rw [List.dropWhile_append_of_pos inside, List.dropWhile_cons, noDigit]
    rfl
  have part : fraction.takeWhile isDigit = fraction := List.takeWhile_eq_self_iff.mpr behind
  have nothing : fraction.dropWhile isDigit = [] := List.dropWhile_eq_nil_iff.mpr behind
  have someDigit : (digits.isEmpty && fraction.isEmpty) = false := by
    rcases given with given | given <;> simp [given]
  unfold readUnsigned?
  simp [whole, rest, part, nothing, someDigit, readExponent?]

end Numeral

/-- A numeral has no sign. -/
theorem IsNumeral.readSign_eq {text : List Char} (numeral : IsNumeral text) :
    Numeral.readSign text = (false, text) := by
  unfold Numeral.readSign
  split
  · rcases numeral.begins with digit | ⟨equal, _⟩
    · exact absurd digit (by decide)
    · exact absurd equal (by decide)
  · rcases numeral.begins with digit | ⟨equal, _⟩
    · exact absurd digit (by decide)
    · exact absurd equal (by decide)
  · rfl

/-- **Every numeral is read,** as a number that is not negative. -/
theorem IsNumeral.exists_read {text : List Char} (numeral : IsNumeral text) :
    ∃ value, Numeral.read? text = some value ∧ value.IsNonnegative := by
  obtain ⟨digits, exponent, unsigned⟩ : ∃ digits exponent,
      Numeral.readUnsigned? false text = some (Numeral.nearest false digits exponent) := by
    cases numeral with
    | whole given inside => exact ⟨_, _, Numeral.readUnsigned?_digits given inside false⟩
    | pointed given inside behind =>
      exact ⟨_, _, Numeral.readUnsigned?_pointed (Or.inl given) inside behind false⟩
    | fraction given behind =>
      have none : ∀ c ∈ ([] : List Char), Numeral.isDigit c = true := by simp
      exact ⟨_, _, Numeral.readUnsigned?_pointed (Or.inr given) none behind false⟩
  refine ⟨_, ?_, Numeral.nearest_isNonnegative digits exponent⟩
  unfold Numeral.read?
  rw [numeral.readSign_eq]
  simp only [unsigned, Option.some_or]

end OpLang
