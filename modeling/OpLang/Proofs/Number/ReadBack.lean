/-
**Written doubles are read back.**

The text of a double is a numeral, and reading it gives the double: whichever decimal was chosen rounds
to it (`readsBack_shortest`), its text writes that decimal (`readUnsigned?_positional`), and reading
rounds to the nearest double. So different doubles have different texts (`text_injective`).
-/

import OpLang.Number.Shortest
import OpLang.Proofs.Number.Numeral
import OpLang.Proofs.Number.Rounding

namespace OpLang

/-! ### Digits -/

namespace Numeral

theorem isDigit_of_mem_toDigits {n : Nat} {c : Char} (member : c ∈ Nat.toDigits 10 n) :
    isDigit c = true := by
  have digit := Nat.isDigit_of_mem_toDigits (by decide) (by decide) member
  exact digit

theorem digitsValue_append (start : Nat) (front back : List Char) :
    digitsValue start (front ++ back) = digitsValue (digitsValue start front) back :=
  List.foldl_append

theorem digitsValue_zeros (start count : Nat) :
    digitsValue start (List.replicate count '0') = start * 10 ^ count := by
  rw [Nat.mul_comm]
  exact Nat.ofDigitChars_replicate_zero

theorem digitsValue_toDigits (n : Nat) : digitsValue 0 (Nat.toDigits 10 n) = n :=
  Nat.ofDigitChars_ten_toDigits

/-- Digits behind others raise those by as many tens. -/
theorem digitsValue_eq (start : Nat) (digits : List Char) :
    digitsValue start digits = start * 10 ^ digits.length + digitsValue 0 digits := by
  rw [Nat.mul_comm]
  exact Nat.ofDigitChars_eq_ofDigitChars_zero

end Numeral

namespace Decimal

open Numeral

theorem length_fractionDigits (digits places : Nat) :
    (fractionDigits digits (places + 1)).length = places + 1 := by
  have short : (Nat.toDigits 10 (digits % 10 ^ (places + 1))).length ≤ places + 1 :=
    (Nat.length_toDigits_le_iff (by decide) (Nat.succ_pos places)).mpr
      (Nat.mod_lt _ (Nat.pow_pos (by decide)))
  simp only [fractionDigits, Nat.pow_eq, List.length_append, List.length_replicate]
  omega

theorem isDigit_of_mem_fractionDigits {digits places : Nat} {c : Char}
    (member : c ∈ fractionDigits digits places) : isDigit c = true := by
  rcases List.mem_append.mp member with zero | written
  · obtain rfl := List.eq_of_mem_replicate zero
    decide
  · exact isDigit_of_mem_toDigits written

/-- The digits before and behind the point are all the digits. -/
theorem digitsValue_fractionDigits (digits places : Nat) :
    digitsValue (digits / 10 ^ (places + 1)) (fractionDigits digits (places + 1)) = digits := by
  have value : digitsValue 0 (fractionDigits digits (places + 1)) = digits % 10 ^ (places + 1) := by
    simp only [fractionDigits, Nat.pow_eq, digitsValue_append, digitsValue_zeros, Nat.zero_mul,
      digitsValue_toDigits]
  rw [digitsValue_eq, length_fractionDigits, value, Nat.mul_comm]
  exact Nat.div_add_mod _ _

/-- Only zeros at the end are stripped. -/
theorem exists_stripZeros_append (text : List Char) :
    ∃ count, stripZeros text ++ List.replicate count '0' = text := by
  refine ⟨(text.reverse.takeWhile (· == '0')).length, ?_⟩
  have zeros : text.reverse.takeWhile (· == '0') =
      List.replicate (text.reverse.takeWhile (· == '0')).length '0' := by
    refine List.eq_replicate_iff.mpr ⟨rfl, fun c member => ?_⟩
    exact beq_iff_eq.mp (List.mem_takeWhile_imp (p := (· == '0')) member)
  rw [stripZeros, ← List.reverse_inj, List.reverse_append, List.reverse_replicate, ← zeros,
    List.reverse_reverse]
  exact List.takeWhile_append_dropWhile

theorem isDigit_of_mem_stripZeros {text : List Char} (inside : ∀ c ∈ text, isDigit c = true) :
    ∀ c ∈ stripZeros text, isDigit c = true := by
  obtain ⟨count, whole⟩ := exists_stripZeros_append text
  exact fun c member => inside c (whole ▸ List.mem_append_left _ member)

/-- A fraction without the zeros at its end is worth as much, for as many places fewer. -/
theorem digitsValue_stripZeros (digits places : Nat) :
    let fraction := stripZeros (fractionDigits digits (places + 1))
    ∃ count, fraction.length + count = places + 1 ∧
      digitsValue (digits / 10 ^ (places + 1)) fraction * 10 ^ count = digits := by
  intro fraction
  obtain ⟨count, whole⟩ := exists_stripZeros_append (fractionDigits digits (places + 1))
  have whole : fraction ++ List.replicate count '0' = fractionDigits digits (places + 1) := whole
  refine ⟨count, ?_, ?_⟩
  · rw [← length_fractionDigits digits places, ← whole, List.length_append, List.length_replicate]
  · rw [← digitsValue_zeros, ← digitsValue_append, whole, digitsValue_fractionDigits]

/-! ### Positional texts -/

/-- The two forms of a decimal that is written without an exponent. -/
theorem positional_cases (digits places : Nat) :
    let fraction := stripZeros (fractionDigits digits (places + 1))
    let whole := Nat.toDigits 10 (digits / 10 ^ (places + 1))
    (fraction = [] ∧ positional ⟨digits, .negSucc places⟩ = whole) ∨
      positional ⟨digits, .negSucc places⟩ = whole ++ '.' :: fraction := by
  intro fraction whole
  cases none : fraction.isEmpty with
  | true => exact .inl ⟨List.isEmpty_iff.mp none, if_pos none⟩
  | false => exact .inr (if_neg (Bool.eq_false_iff.mp none))

/-- **A decimal that is written without an exponent is a numeral.** -/
theorem isNumeral_positional (decimal : Decimal) : IsNumeral decimal.positional := by
  obtain ⟨digits, power | places⟩ := decimal
  · exact .whole Nat.toDigits_ne_nil fun _ => isDigit_of_mem_toDigits
  · have behind := isDigit_of_mem_stripZeros fun c (member : c ∈ fractionDigits digits (places + 1)) =>
      isDigit_of_mem_fractionDigits member
    rcases positional_cases digits places with ⟨-, same⟩ | same <;> rw [same]
    · exact .whole Nat.toDigits_ne_nil fun _ => isDigit_of_mem_toDigits
    · exact .pointed Nat.toDigits_ne_nil (fun _ => isDigit_of_mem_toDigits) behind

/-- **It writes that decimal:** reading it gives the double nearest to it. -/
theorem readUnsigned?_positional (decimal : Decimal) (negative : Bool) :
    readUnsigned? negative decimal.positional =
      some (.ofDecimal negative decimal.digits decimal.exponent) := by
  obtain ⟨digits, power | places⟩ := decimal
  · have noPlaces := Binary64.ofDecimal_shift negative digits power power
    rw [Int.sub_self] at noPlaces
    rw [positional, readUnsigned?_digits Nat.toDigits_ne_nil (fun _ => isDigit_of_mem_toDigits),
      digitsValue_toDigits, nearest_eq_ofDecimal, Nat.pow_eq, noPlaces]
    rfl
  · obtain ⟨count, length, value⟩ := digitsValue_stripZeros digits places
    have behind := isDigit_of_mem_stripZeros fun c (member : c ∈ fractionDigits digits (places + 1)) =>
      isDigit_of_mem_fractionDigits member
    have forms := positional_cases digits places
    generalize stripZeros (fractionDigits digits (places + 1)) = fraction at length value behind forms
    have rounded := Binary64.ofDecimal_shift negative
      (digitsValue (digits / 10 ^ (places + 1)) fraction) count (-fraction.length)
    rw [value, show -(fraction.length : Int) - count = .negSucc places by omega] at rounded
    rcases forms with ⟨rfl, same⟩ | same
    · rw [same, readUnsigned?_digits Nat.toDigits_ne_nil (fun _ => isDigit_of_mem_toDigits),
        digitsValue_toDigits, nearest_eq_ofDecimal, rounded]
      rfl
    · rw [same, readUnsigned?_pointed (.inl Nat.toDigits_ne_nil) (fun _ => isDigit_of_mem_toDigits)
        behind, digitsValue_toDigits, nearest_eq_ofDecimal, rounded]

/-! ### The shortest decimal -/

theorem readsBack_of_onGrid? {rank : Nat} {exponent : Int} {decimal : Decimal}
    (hit : onGrid? rank exponent = some decimal) : readsBack rank decimal = true := by
  unfold onGrid? at hit
  generalize scaled rank exponent = quotient at hit
  obtain ⟨num, den⟩ := quotient
  dsimp only at hit
  cases lower : readsBack rank ⟨num / den, exponent⟩ <;>
    cases upper : readsBack rank ⟨num / den + 1, exponent⟩ <;>
    simp only [lower, upper, reduceCtorEq, Option.some.injEq] at hit
  case false.true => rw [← hit, upper]
  case true.false => rw [← hit, lower]
  case true.true =>
    split at hit
    · rw [← Option.some.inj hit, lower]
    · rw [← Option.some.inj hit, upper]

/-- All digits of a double are those of a number that lies on it. -/
theorem decimalRank_exact (rank : Nat) {places : Nat} (all : places + 1 = 1074) :
    Binary64.decimalRank (Binary64.units rank * Nat.pow 5 1074) (.negSucc places) = rank := by
  have positive (power : Nat) : 0 < Nat.pow 10 power := Nat.pow_pos (by decide)
  rw [Binary64.decimalRank_negSucc, all]
  refine Binary64.nearestRank_of_exact (positive 1074) ?_
  -- Ten is five times two, at this power as at any other.
  generalize 1074 = power
  rw [Nat.mul_assoc, Nat.pow_eq, Nat.pow_eq, ← Nat.mul_pow, Nat.pow_eq]

theorem readsBack_exact (rank : Nat) : readsBack rank (exact rank) = true := by
  have exponent : (-1074 : Int) = .negSucc 1073 := rfl
  rw [readsBack, exact, exponent, decimalRank_exact rank rfl]
  exact beq_self_eq_true rank

/-- **The decimal that is chosen for a double rounds to it.** -/
theorem readsBack_shortest (rank : Nat) : readsBack rank (shortest rank) = true := by
  unfold shortest
  cases found :
    (List.range 17).findSome? fun index : Nat => onGrid? rank (magnitude rank - index - 1) with
  | none => exact readsBack_exact rank
  | some decimal =>
    obtain ⟨index, -, hit⟩ := List.exists_of_findSome?_eq_some found
    exact readsBack_of_onGrid? hit

end Decimal

/-! ### Texts of doubles -/

namespace Binary64

/-- Whether a double is a number and not infinite. -/
def IsFinite : Binary64 → Prop
  | .nan => False
  | .ranked _ rank _ => rank ≠ infinityRank

theorem readUnsigned?_magnitudeText {rank : Nat} (negative : Bool) (bounded : rank ≤ infinityRank)
    (finite : rank ≠ infinityRank) :
    Numeral.readUnsigned? negative (magnitudeText rank) = some (.ranked negative rank bounded) := by
  unfold magnitudeText
  split
  case isTrue zero =>
    subst zero
    rfl
  case isFalse =>
    have rounds := beq_iff_eq.mp (Decimal.readsBack_shortest rank)
    rw [Decimal.readUnsigned?_positional]
    simp only [ofDecimal, rounds, Nat.min_eq_left bounded]

/-- The text of a finite double without its sign is a numeral. -/
theorem isNumeral_magnitudeText {rank : Nat} (finite : rank ≠ infinityRank) :
    IsNumeral (magnitudeText rank) := by
  unfold magnitudeText
  split
  · exact .whole (List.cons_ne_nil _ _) (List.all_eq_true.mp (by decide))
  · exact Decimal.isNumeral_positional _

theorem IsNonnegative.isNumeral_text {value : Binary64} (nonnegative : value.IsNonnegative)
    (finite : value.IsFinite) : IsNumeral value.text := by
  cases nonnegative with
  | ranked rank bounded =>
    rw [text, if_neg Bool.false_ne_true]
    exact isNumeral_magnitudeText finite

/-- **Every double is read back from its text,** be it infinite or no number. -/
theorem read?_text (value : Binary64) : Numeral.read? value.text = some value := by
  cases value with
  | nan => decide
  | ranked negative rank bounded =>
    by_cases finite : rank = infinityRank
    · subst finite
      cases negative <;> rfl
    · have unsigned := readUnsigned?_magnitudeText negative bounded finite
      cases negative with
      | true => simp [text, Numeral.read?, Numeral.readSign, unsigned]
      | false =>
        simp [text, Numeral.read?, (isNumeral_magnitudeText finite).readSign_eq, unsigned]

/-- **Different doubles have different texts.** -/
theorem text_injective : Function.Injective Binary64.text := by
  intro value other same
  have read := read?_text value
  rw [same, read?_text other] at read
  exact (Option.some.inj read).symm

end Binary64

end OpLang
