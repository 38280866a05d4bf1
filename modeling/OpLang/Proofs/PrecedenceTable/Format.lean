/-
**The format of written tables.**

The entries of a text are what stands between its commas, without blanks around it and unless nothing is
left (`HasEntries`). An entry gives an operator a precedence if the operator stands before its last colon
and the numeral of the precedence behind it (`Gives`). No function of the reader occurs in these two.

* `readEntry?_eq_some_iff`: an entry is read as what it gives. Cutting at the last colon leaves none behind
  the cut (`splitAtLastColon?_eq_some_iff`), so there is no second way to read it.
* `read_acceptsFormat`: a text is read exactly if each of its entries gives something. The table holds what
  they give, the last entry for an operator before all others; otherwise the first entry that gives nothing
  is reported.
-/

import Mathlib.Data.List.Forall2
import OpLang.PrecedenceTable.Reader
import OpLang.Proofs.PrecedenceTable.Entries
import OpLang.Proofs.Text.Trim

namespace OpLang.PrecedenceTable

open Text (TrimsTo trim_eq_iff)

/-! ### Numerals -/

section Numerals

variable {text digits : List Char} {precedence : UInt16}

/-- Whether some digits write a precedence. -/
structure AreDigitsOf (precedence : UInt16) (digits : List Char) : Prop where
  nonempty : digits ≠ []
  inside : ∀ c ∈ digits, c.isDigit = true
  value : Nat.ofDigitChars 10 digits 0 = precedence.toNat

/-- **Whether a text is a numeral of a precedence:** its digits, after a plus sign or none. -/
inductive IsNumeralOf (precedence : UInt16) : List Char → Prop where
  | plain {digits : List Char} (written : AreDigitsOf precedence digits) :
      IsNumeralOf precedence digits
  | signed {digits : List Char} (written : AreDigitsOf precedence digits) :
      IsNumeralOf precedence ('+' :: digits)

/-- The number that digits write is taken as a precedence if it is below `2 ^ 16`. -/
theorem ofDigits_eq_some_iff :
    (if digits ≠ [] ∧ digits.all Numeral.isDigit ∧ Numeral.digitsValue 0 digits < Nat.pow 2 16 then
      some (UInt16.ofNat (Numeral.digitsValue 0 digits)) else none) = some precedence ↔
      AreDigitsOf precedence digits := by
  rw [Option.ite_none_right_eq_some, Option.some_inj, List.all_eq_true]
  constructor
  · rintro ⟨⟨nonempty, inside, fits⟩, rfl⟩
    exact ⟨nonempty, inside, (UInt16.toNat_ofNat_of_lt' fits).symm⟩
  · rintro ⟨nonempty, inside, value⟩
    have same : Numeral.digitsValue 0 digits = precedence.toNat := value
    rw [same]
    exact ⟨⟨nonempty, inside, precedence.toNat_lt⟩, UInt16.ofNat_toNat⟩

/-- **A precedence is read from its numerals and from nothing else.** -/
theorem readPrecedence?_eq_some_iff :
    readPrecedence? text = some precedence ↔ IsNumeralOf precedence text := by
  by_cases sign : ∃ digits, text = '+' :: digits
  · obtain ⟨digits, rfl⟩ := sign
    refine ofDigits_eq_some_iff.trans ⟨.signed, fun numeral => ?_⟩
    generalize whole : '+' :: digits = text at numeral
    cases numeral with
    | plain written =>
      subst whole
      exact absurd (written.inside '+' List.mem_cons_self) (by decide)
    | signed written =>
      obtain ⟨-, rfl⟩ := List.cons.inj whole
      exact written
  · have bare : readPrecedence? text =
        if text ≠ [] ∧ text.all Numeral.isDigit ∧ Numeral.digitsValue 0 text < Nat.pow 2 16 then
          some (UInt16.ofNat (Numeral.digitsValue 0 text)) else none := by
      unfold readPrecedence?
      dsimp only
      split
      · exact absurd ⟨_, rfl⟩ sign
      · rfl
    rw [bare, ofDigits_eq_some_iff]
    refine ⟨.plain, fun numeral => ?_⟩
    cases numeral with
    | plain written => exact written
    | signed written => exact absurd ⟨_, rfl⟩ sign

end Numerals

/-! ### Entries -/

section Entries

variable {text entry before behind : List Char} {operator : String} {precedence : UInt16}

theorem splitAtLastColon?_of_not_mem (absent : ':' ∉ text) : splitAtLastColon? text = none := by
  induction text with
  | nil => rfl
  | cons c rest ih =>
    obtain ⟨other, absent⟩ := not_or.mp (mt List.mem_cons.mpr absent)
    rw [splitAtLastColon?, ih absent, if_neg (Ne.symm other)]

/-- A text is cut at a colon with no other behind it. -/
theorem splitAtLastColon?_append (absent : ':' ∉ behind) (before : List Char) :
    splitAtLastColon? (before ++ ':' :: behind) = some (before, behind) := by
  induction before with
  | nil =>
    rw [List.nil_append, splitAtLastColon?, splitAtLastColon?_of_not_mem absent]
    rfl
  | cons c before ih => rw [List.cons_append, splitAtLastColon?, ih]

/-- Of the colons in a text one is the last. -/
theorem exists_lastColon (colon : ':' ∈ text) :
    ∃ before behind, text = before ++ ':' :: behind ∧ ':' ∉ behind := by
  obtain ⟨back, front, reversed, absent⟩ := List.eq_append_cons_of_mem (List.mem_reverse.mpr colon)
  refine ⟨front.reverse, back.reverse, ?_, mt List.mem_reverse.mp absent⟩
  rw [← List.reverse_reverse text, reversed]
  simp

/-- **A text is cut at its last colon and nowhere else.** -/
theorem splitAtLastColon?_eq_some_iff :
    splitAtLastColon? text = some (before, behind) ↔
      text = before ++ ':' :: behind ∧ ':' ∉ behind := by
  constructor
  · intro cut
    by_cases colon : ':' ∈ text
    · obtain ⟨front, back, rfl, absent⟩ := exists_lastColon colon
      rw [splitAtLastColon?_append absent] at cut
      cases cut
      exact ⟨rfl, absent⟩
    · rw [splitAtLastColon?_of_not_mem colon] at cut
      cases cut
  · rintro ⟨rfl, absent⟩
    exact splitAtLastColon?_append absent before

/-- **Whether an entry gives an operator a precedence:** the operator stands before its last colon and a
numeral of the precedence behind it, with blanks around each. -/
structure Gives (entry : List Char) (operator : String) (precedence : UInt16) : Prop where
  parts : ∃ before behind numeral, entry = before ++ ':' :: behind ∧ ':' ∉ behind ∧
    TrimsTo before operator.toList ∧ TrimsTo behind numeral ∧ IsNumeralOf precedence numeral
  named : operator ≠ ""

/-- **An entry is read as what it gives.** -/
theorem readEntry?_eq_some_iff :
    readEntry? entry = some (operator, precedence) ↔ Gives entry operator precedence := by
  unfold readEntry?
  constructor
  · intro read
    split at read
    · cases read
    case h_2 before behind cut =>
      obtain ⟨rfl, absent⟩ := splitAtLastColon?_eq_some_iff.mp cut
      simp only at read
      split at read
      · cases read
      case isFalse named =>
        obtain ⟨found, known, same⟩ := Option.map_eq_some_iff.mp read
        obtain ⟨rfl, rfl⟩ := Prod.mk.inj same
        refine ⟨⟨before, behind, Text.trim behind, rfl, absent, ?_, Text.trimsTo_trim behind,
          readPrecedence?_eq_some_iff.mp known⟩, ?_⟩
        · rw [String.toList_ofList]
          exact Text.trimsTo_trim before
        · exact fun empty => named (String.ofList_eq_empty_iff.mp empty)
  · rintro ⟨⟨before, behind, numeral, rfl, absent, trimmed, digits, written⟩, named⟩
    have given : operator.toList ≠ [] := mt String.toList_eq_nil_iff.mp named
    simp only [splitAtLastColon?_append absent, trim_eq_iff.mpr trimmed, trim_eq_iff.mpr digits,
      if_neg given, readPrecedence?_eq_some_iff.mpr written, Option.map_some, String.ofList_toList]

end Entries

/-! ### Texts -/

section Texts

variable {table : PrecedenceTable} {text entry : List Char} {entries front others : List (List Char)}
  {pairs : List (String × UInt16)}

/-- Whether an entry gives some operator some precedence. -/
def IsEntry (entry : List Char) : Prop := ∃ operator precedence, Gives entry operator precedence

/-- Whether some entries give some operators their precedences, one after the other. -/
def GivesAll (entries : List (List Char)) (pairs : List (String × UInt16)) : Prop :=
  List.Forall₂ (fun entry pair => Gives entry pair.1 pair.2) entries pairs

/-- **Whether a text has some entries:** they are what stands between its commas, without the blanks
around it, unless nothing is left. -/
def HasEntries (text : List Char) (entries : List (List Char)) : Prop :=
  ∃ trimmed, List.Forall₂ TrimsTo (text.splitOn ',') trimmed ∧ entries = trimmed.filter (· ≠ [])

theorem betweenCommas_eq_splitOn (text : List Char) :
    (betweenCommas text).1 :: (betweenCommas text).2 = text.splitOn ',' := by
  induction text with
  | nil => rw [List.splitOn_nil, betweenCommas]
  | cons c rest ih =>
    rw [List.splitOn_cons_eq_if_modifyHead, ← ih, betweenCommas]
    by_cases comma : c = ','
    · simp only [if_pos comma, if_pos (beq_iff_eq.mpr comma)]
    · simp only [if_neg comma, if_neg (mt beq_iff_eq.mp comma), List.modifyHead_cons]

theorem entryTexts_eq (text : List Char) :
    entryTexts text = ((text.splitOn ',').map Text.trim).filter (· ≠ []) := by
  rw [← betweenCommas_eq_splitOn]
  refine List.filter_congr fun piece _ => ?_
  cases piece <;> rfl

/-- **A text has the entries that are read from it and no others.** -/
theorem hasEntries_iff : HasEntries text entries ↔ entries = entryTexts text := by
  have trimmed : ∀ other, List.Forall₂ TrimsTo (text.splitOn ',') other ↔
      (text.splitOn ',').map Text.trim = other := fun other => by
    have trims : TrimsTo = fun piece core => Text.trim piece = core :=
      funext₂ fun piece core => propext trim_eq_iff.symm
    rw [trims, ← List.forall₂_map_left_iff, List.forall₂_eq_eq_eq]
  unfold HasEntries
  simp only [trimmed, exists_eq_left']
  rw [entryTexts_eq]

/-- What some entries give is known. -/
theorem GivesAll.unique {other : List (String × UInt16)} (given : GivesAll entries pairs)
    (given' : GivesAll entries other) : other = pairs := by
  induction given generalizing other with
  | nil =>
    cases given'
    rfl
  | cons gives _ ih =>
    cases given' with
    | cons gives' given' =>
      have same := (readEntry?_eq_some_iff.mpr gives').symm.trans (readEntry?_eq_some_iff.mpr gives)
      rw [ih given', Prod.ext_iff.mpr (Prod.mk.inj (Option.some.inj same))]

/-- Entries that give something are all inserted. -/
theorem insertEntries_of_givesAll (given : GivesAll entries pairs) :
    table.insertEntries entries = .ok (table.insertAll pairs) := by
  induction given generalizing table with
  | nil => rfl
  | cons gives _ ih =>
    simp only [insertEntries, readEntry?_eq_some_iff.mpr gives, ih]
    rfl

/-- **The first entry that gives nothing is reported,** whatever stands behind it. -/
theorem insertEntries_of_refused (given : ∀ good ∈ front, IsEntry good) (refused : ¬ IsEntry entry) :
    table.insertEntries (front ++ entry :: others) =
      .error ⟨.badEntry (String.ofList entry), Position.unknown⟩ := by
  induction front generalizing table with
  | nil =>
    cases read : readEntry? entry with
    | none => simp only [List.nil_append, insertEntries, read]
    | some pair => exact absurd ⟨pair.1, pair.2, readEntry?_eq_some_iff.mp read⟩ refused
  | cons good front ih =>
    obtain ⟨operator, precedence, gives⟩ := given good List.mem_cons_self
    simp only [List.cons_append, insertEntries, readEntry?_eq_some_iff.mpr gives]
    exact ih fun other member => given other (List.mem_cons_of_mem _ member)

/-- All entries give something, or there is a first one that does not. -/
theorem givesAll_or_refused (entries : List (List Char)) :
    (∃ pairs, GivesAll entries pairs) ∨
    ∃ front entry others, entries = front ++ entry :: others ∧ (∀ good ∈ front, IsEntry good) ∧
      ¬ IsEntry entry := by
  induction entries with
  | nil => exact .inl ⟨[], .nil⟩
  | cons entry entries ih =>
    by_cases gives : IsEntry entry
    · rcases ih with ⟨pairs, given⟩ | ⟨front, refused, others, rfl, given, gone⟩
      · obtain ⟨operator, precedence, gives⟩ := gives
        exact .inl ⟨(operator, precedence) :: pairs, .cons gives given⟩
      · refine .inr ⟨entry :: front, refused, others, rfl, fun good member => ?_, gone⟩
        rcases List.mem_cons.mp member with rfl | member
        · exact gives
        · exact given good member
    · exact .inr ⟨[], entry, entries, rfl, nofun, gives⟩

/-- **Whether an entry is the first of a text's entries that gives nothing.** -/
def IsFirstBadEntry (text entry : List Char) : Prop :=
  ∃ front others, HasEntries text (front ++ entry :: others) ∧ (∀ good ∈ front, IsEntry good) ∧
    ¬ IsEntry entry

/-- A text is refused for its first entry that gives nothing, and for no other reason. -/
theorem read_eq_error_iff {text : String} {diagnostic : Diagnostic} :
    read text = .error diagnostic ↔ ∃ entry, IsFirstBadEntry text.toList entry ∧
      diagnostic = ⟨.badEntry (String.ofList entry), Position.unknown⟩ := by
  constructor
  · intro unread
    rw [read] at unread
    obtain ⟨pairs, given⟩ | ⟨front, entry, others, same, given, refused⟩ :=
      givesAll_or_refused (entryTexts text.toList)
    · rw [insertEntries_of_givesAll given] at unread
      cases unread
    · rw [same, insertEntries_of_refused given refused] at unread
      exact ⟨entry, ⟨front, others, hasEntries_iff.mpr same.symm, given, refused⟩,
        (Except.error.inj unread).symm⟩
  · rintro ⟨entry, ⟨front, others, entries, given, refused⟩, rfl⟩
    rw [read, ← hasEntries_iff.mp entries]
    exact insertEntries_of_refused given refused

theorem GivesAll.isEntry (given : GivesAll entries pairs) : ∀ entry ∈ entries, IsEntry entry := by
  induction given with
  | nil => exact nofun
  | cons gives _ ih =>
    intro entry member
    rcases List.mem_cons.mp member with rfl | member
    · exact ⟨_, _, gives⟩
    · exact ih entry member

/-- **A table is read from the texts of its format and from no others.** Every text has one list of entries.
If all of them give something, the table holds what they give: for each operator what its last entry gives,
and nothing else. Otherwise the first entry that gives nothing is reported, as an entry that stands
nowhere. -/
theorem read_acceptsFormat (text : String) :
    ∃ entries, (∀ other, HasEntries text.toList other ↔ other = entries) ∧
      ((∃ table, read text = .ok table) ↔ ∀ entry ∈ entries, IsEntry entry) ∧
      (∀ table, read text = .ok table → ∃ pairs, (∀ other, GivesAll entries other ↔ other = pairs) ∧
        (∀ operator, table.get? operator = pairs.reverse.lookup operator) ∧
        table.size = (pairs.map Prod.fst).toFinset.card) ∧
      ∀ diagnostic, read text = .error diagnostic ↔
        ∃ front entry others, entries = front ++ entry :: others ∧ (∀ good ∈ front, IsEntry good) ∧
          ¬ IsEntry entry ∧ diagnostic = ⟨.badEntry (String.ofList entry), Position.unknown⟩ := by
  refine ⟨entryTexts text.toList, fun other => hasEntries_iff, ?_⟩
  show ((∃ table, empty.insertEntries (entryTexts text.toList) = .ok table) ↔ _) ∧
    (∀ table, empty.insertEntries (entryTexts text.toList) = .ok table → _) ∧
    ∀ diagnostic, empty.insertEntries (entryTexts text.toList) = .error diagnostic ↔ _
  generalize entryTexts text.toList = entries
  rcases givesAll_or_refused entries with ⟨pairs, given⟩ | ⟨front, entry, others, rfl, given, refused⟩
  · rw [insertEntries_of_givesAll given]
    refine ⟨iff_of_true ⟨_, rfl⟩ given.isEntry, fun table read => ?_, fun diagnostic => ?_⟩
    · obtain rfl := Except.ok.inj read
      exact ⟨pairs, fun other => ⟨given.unique, fun same => same ▸ given⟩,
        fun operator => get?_insertAll_empty, size_insertAll_empty⟩
    · refine iff_of_false nofun ?_
      rintro ⟨front, entry, others, rfl, -, refused, -⟩
      exact refused (given.isEntry entry List.mem_append_cons_self)
  · refine ⟨iff_of_false ?_ fun all => refused (all entry List.mem_append_cons_self), ?_, ?_⟩
    · rw [insertEntries_of_refused given refused]
      exact nofun
    · rw [insertEntries_of_refused given refused]
      exact nofun
    · intro diagnostic
      constructor
      · rw [insertEntries_of_refused given refused]
        intro read
        exact ⟨front, entry, others, rfl, given, refused, (Except.error.inj read).symm⟩
      · rintro ⟨front', entry', others', same, given', refused', rfl⟩
        rw [same, insertEntries_of_refused given' refused']

end Texts

end OpLang.PrecedenceTable
