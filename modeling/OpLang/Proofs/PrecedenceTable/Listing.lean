/-
**Written tables are read back.**

A text lists entries if it writes them in their order between commas: an operator, a colon and the decimal
digits of its precedence, with blanks before and behind each of them, and as many empty entries as one likes
(`Lists`). An operator can be written in this way if it holds no comma and has no blank at its ends
(`IsExpressible`); colons and blanks inside it do no harm, since the last colon of an entry is the one before
its digits (`WritesEntry.gives`).

`read_of_lists`: a text that lists the entries of a table, in whatever order, is read as a table with the
same entries.
-/

import OpLang.Proofs.PrecedenceTable.Format
import OpLang.Proofs.Token.Acceptance

namespace OpLang.PrecedenceTable

open Text (AllBlank IsTrimmed TrimsTo trim_eq_iff)

/-! ### Operators that can be written -/

/-- **Whether an operator can be written:** it is not empty, has no comma in it and no blank at its
ends. -/
structure IsExpressible (operator : String) : Prop where
  nonempty : operator ≠ ""
  noComma : ',' ∉ operator.toList
  trimmed : IsTrimmed operator.toList

instance (operator : String) : Decidable (IsExpressible operator) :=
  decidable_of_iff (operator ≠ "" ∧ ',' ∉ operator.toList ∧ IsTrimmed operator.toList)
    ⟨fun ⟨nonempty, noComma, trimmed⟩ => ⟨nonempty, noComma, trimmed⟩,
      fun ⟨nonempty, noComma, trimmed⟩ => ⟨nonempty, noComma, trimmed⟩⟩

/-- Whether all operators of a table can be written. -/
def Expressible (table : PrecedenceTable) : Prop := ∀ entry ∈ table.entries, IsExpressible entry.1

/-! ### Texts that list entries -/

/-- **Whether a text between two commas writes an entry, or none:** blanks stand around the operator and
around the digits of its precedence, or alone. -/
inductive WritesEntry : List Char → Option (String × UInt16) → Prop where
  | blanks {blanks : List Char} (white : AllBlank blanks) : WritesEntry blanks none
  | entry {operator : String} {precedence : UInt16} {blanks₁ blanks₂ blanks₃ blanks₄ : List Char}
      (white₁ : AllBlank blanks₁) (white₂ : AllBlank blanks₂) (white₃ : AllBlank blanks₃)
      (white₄ : AllBlank blanks₄) :
      WritesEntry
        (blanks₁ ++ operator.toList ++ blanks₂ ++
          ':' :: (blanks₃ ++ Nat.toDigits 10 precedence.toNat ++ blanks₄))
        (some (operator, precedence))

/-- **Whether a text lists some entries** in their order, between commas. -/
inductive Lists : List Char → List (String × UInt16) → Prop where
  | last {piece : List Char} {entry : Option (String × UInt16)} (writes : WritesEntry piece entry) :
      Lists piece entry.toList
  | more {piece rest : List Char} {entry : Option (String × UInt16)} {others : List (String × UInt16)}
      (writes : WritesEntry piece entry) (further : Lists rest others) :
      Lists (piece ++ ',' :: rest) (entry.toList ++ others)

/-! ### Reading what is written -/

section Reading

variable {text piece : List Char} {entry : Option (String × UInt16)} {operator : String}
  {precedence : UInt16} {listed : List (String × UInt16)}

/-- The decimal digits of a precedence are digits of it. -/
theorem areDigitsOf_toDigits (precedence : UInt16) :
    AreDigitsOf precedence (Nat.toDigits 10 precedence.toNat) where
  nonempty := Nat.toDigits_ne_nil
  inside _ digit := Nat.isDigit_of_mem_toDigits (by decide) (by decide) digit
  value := Nat.ofDigitChars_ten_toDigits

theorem AreDigitsOf.not_blank {digits : List Char} (written : AreDigitsOf precedence digits) :
    ∀ c ∈ digits, Text.isBlank c = false := by
  intro c member
  by_contra white
  obtain ⟨-, noDigit, -⟩ := not_graphic_of_isBlank (by simpa using white)
  exact absurd ((written.inside c member).symm.trans noDigit) nofun

theorem comma_not_mem_of_allBlank (white : AllBlank text) : ',' ∉ text := fun member =>
  absurd (white ',' member) (by decide)

theorem colon_not_mem_of_allBlank (white : AllBlank text) : ':' ∉ text := fun member =>
  absurd (white ':' member) (by decide)

theorem WritesEntry.comma_not_mem (writes : WritesEntry piece entry)
    (expressible : ∀ pair ∈ entry, IsExpressible pair.1) : ',' ∉ piece := by
  cases writes with
  | blanks white => exact comma_not_mem_of_allBlank white
  | @entry operator precedence _ _ _ _ white₁ white₂ white₃ white₄ =>
    have digits : ',' ∉ Nat.toDigits 10 precedence.toNat := fun member =>
      absurd ((areDigitsOf_toDigits precedence).inside ',' member) (by decide)
    simp [comma_not_mem_of_allBlank, white₁, white₂, white₃, white₄, digits,
      (expressible _ rfl).noComma]

/-- **An entry gives what it writes:** the last colon in it is the one before its digits. -/
theorem WritesEntry.gives (writes : WritesEntry piece (some (operator, precedence)))
    (expressible : IsExpressible operator) : Gives (Text.trim piece) operator precedence := by
  generalize given : some (operator, precedence) = entry at writes
  cases writes with
  | blanks => cases given
  | @entry _ _ blanks₁ blanks₂ blanks₃ blanks₄ white₁ white₂ white₃ white₄ =>
    obtain ⟨rfl, rfl⟩ := Prod.mk.inj (Option.some.inj given)
    have written := areDigitsOf_toDigits precedence
    have numeral : IsTrimmed (Nat.toDigits 10 precedence.toNat) := .of_forall written.not_blank
    have trimmed := expressible.trimmed.append numeral (mt String.toList_eq_nil_iff.mp expressible.nonempty)
      written.nonempty (blanks₂ ++ ':' :: blanks₃)
    have core : Text.trim (blanks₁ ++ operator.toList ++ blanks₂ ++
        ':' :: (blanks₃ ++ Nat.toDigits 10 precedence.toNat ++ blanks₄)) =
        operator.toList ++ blanks₂ ++ ':' :: (blanks₃ ++ Nat.toDigits 10 precedence.toNat) := by
      have around := trimmed.trim_eq white₁ white₄
      simpa only [List.append_assoc, List.cons_append] using around
    have noColon : ':' ∉ blanks₃ ++ Nat.toDigits 10 precedence.toNat := fun member =>
      (List.mem_append.mp member).elim (colon_not_mem_of_allBlank white₃) fun digit =>
        absurd (written.inside ':' digit) (by decide)
    refine ⟨⟨_, _, _, core, noColon, ⟨⟨[], blanks₂, rfl, nofun, white₂⟩, expressible.trimmed⟩,
      ⟨⟨blanks₃, [], (List.append_nil _).symm, white₃, nofun⟩, numeral⟩, .plain written⟩,
      expressible.nonempty⟩

theorem WritesEntry.givesAll (writes : WritesEntry piece entry)
    (expressible : ∀ pair ∈ entry, IsExpressible pair.1) :
    GivesAll ([Text.trim piece].filter (· ≠ [])) entry.toList := by
  cases entry with
  | none =>
    cases writes with
    | blanks white =>
      rw [white.trim_eq_nil]
      exact .nil
  | some pair =>
    have gives := writes.gives (expressible pair rfl)
    have given : Text.trim piece ≠ [] := by
      obtain ⟨before, behind, -, whole, -⟩ := gives.parts
      rw [whole]
      exact List.append_ne_nil_of_right_ne_nil _ (List.cons_ne_nil _ _)
    rw [List.filter_cons_of_pos (by simpa using given)]
    exact .cons gives .nil

/-- **The entries of a text that lists some give these.** -/
theorem Lists.givesAll (lists : Lists text listed)
    (expressible : ∀ pair ∈ listed, IsExpressible pair.1) : GivesAll (entryTexts text) listed := by
  induction lists with
  | last writes =>
    have own := fun pair member => expressible pair (Option.mem_toList.mpr member)
    rw [entryTexts_eq, List.splitOn_eq_singleton (writes.comma_not_mem own)]
    exact writes.givesAll own
  | @more piece rest entry others writes _ ih =>
    have own := fun pair (member : pair ∈ entry) =>
      expressible pair (List.mem_append_left _ (Option.mem_toList.mpr member))
    have further := ih fun pair member => expressible pair (List.mem_append_right _ member)
    rw [entryTexts_eq, List.splitOn_append_cons_self_of_not_mem (writes.comma_not_mem own),
      List.map_cons, ← List.singleton_append, List.filter_append, ← entryTexts_eq]
    exact List.rel_append (writes.givesAll own) further

/-- A text that lists entries of writable operators is read as the table that they make. -/
theorem Lists.read_eq {text : String} (lists : Lists text.toList listed)
    (expressible : ∀ pair ∈ listed, IsExpressible pair.1) : read text = .ok (empty.insertAll listed) :=
  insertEntries_of_givesAll (lists.givesAll expressible)

end Reading

/-! ### Reading back -/

section ReadBack

variable {table : PrecedenceTable} {text : String} {listed : List (String × UInt16)}

/-- A text that lists the entries of a table is read as a table that gives the same precedences. -/
theorem read_of_lists (expressible : table.Expressible) (ordered : listed.Perm table.entries)
    (lists : Lists text.toList listed) :
    ∃ other, read text = .ok other ∧ ∀ operator, other.get? operator = table.get? operator := by
  refine ⟨_, lists.read_eq fun pair member => expressible pair (ordered.mem_iff.mp member),
    fun operator => ?_⟩
  rw [get?_insertAll_empty]
  exact lookup_eq_of_perm table.distinct ((List.reverse_perm listed).trans ordered)

/-- **A table that can be written is read back** from every text that lists its entries, in whatever order
and with whatever blanks and empty entries. So any two such texts are read as tables with the same
entries. -/
theorem read_listed (expressible : table.Expressible) :
    (∀ text listed, listed.Perm table.entries → Lists text.toList listed →
      ∃ other, read text = .ok other ∧ other.sameEntries table = true) ∧
    ∀ text text' listed listed', listed.Perm table.entries → listed'.Perm table.entries →
      Lists text.toList listed → Lists text'.toList listed' →
      ∃ other other', read text = .ok other ∧ read text' = .ok other' ∧
        other.sameEntries other' = true := by
  constructor
  · intro text listed ordered lists
    obtain ⟨other, read, same⟩ := read_of_lists expressible ordered lists
    exact ⟨other, read, sameEntries_iff.mpr fun operator => (same operator).symm⟩
  · intro text text' listed listed' ordered ordered' lists lists'
    obtain ⟨other, read, same⟩ := read_of_lists expressible ordered lists
    obtain ⟨other', read', same'⟩ := read_of_lists expressible ordered' lists'
    exact ⟨other, other', read, read', sameEntries_iff.mpr fun operator =>
      (same' operator).trans (same operator).symm⟩

/-- A table with a colon for an operator, and one that ends in a colon and has a blank inside. -/
def colonTable : PrecedenceTable := .ofList [(":", 5), ("a b:", 65535), ("<", 0)]

/-- Its entries are listed once without blanks, and once in another order, with blanks and empty
entries. -/
theorem read_listed_colonTable :
    let plain := "::5,a b::65535,<:0"
    let spaced := ",< :\u3000 0\t,\u00a0, a b: :65535,::5\n,"
    colonTable.Expressible ∧
    Lists plain.toList [(":", 5), ("a b:", 65535), ("<", 0)] ∧
    Lists spaced.toList [("<", 0), ("a b:", 65535), (":", 5)] ∧
    (∃ other, read spaced = .ok other ∧ other.sameEntries colonTable = true) ∧
    ∃ other other', read plain = .ok other ∧ read spaced = .ok other' ∧
      other.sameEntries other' = true := by
  intro plain spaced
  have expressible : colonTable.Expressible := by
    show ∀ entry ∈ colonTable.entries, IsExpressible entry.1
    decide
  have plainly : Lists plain.toList [(":", 5), ("a b:", 65535), ("<", 0)] := by
    refine (congrArg₂ Lists ?_ rfl).mp <|
      .more (@WritesEntry.entry ":" 5 [] [] [] [] nofun nofun nofun nofun) <|
      .more (@WritesEntry.entry "a b:" 65535 [] [] [] [] nofun nofun nofun nofun) <|
      .last (@WritesEntry.entry "<" 0 [] [] [] [] nofun nofun nofun nofun)
    decide
  have spaciously : Lists spaced.toList [("<", 0), ("a b:", 65535), (":", 5)] := by
    refine (congrArg₂ Lists ?_ rfl).mp <|
      .more (@WritesEntry.blanks [] nofun) <|
      .more (@WritesEntry.entry "<" 0 [] [' '] ['\u3000', ' '] ['\t'] (by decide) (by decide)
        (by decide) (by decide)) <|
      .more (@WritesEntry.blanks ['\u00a0'] (by decide)) <|
      .more (@WritesEntry.entry "a b:" 65535 [' '] [' '] [] [] (by decide) (by decide) nofun nofun) <|
      .more (@WritesEntry.entry ":" 5 [] [] [] ['\n'] nofun nofun nofun (by decide)) <|
      .last (@WritesEntry.blanks [] nofun)
    decide
  obtain ⟨back, alike⟩ := read_listed expressible
  exact ⟨expressible, plainly, spaciously, back spaced _ (by decide) spaciously,
    alike plain spaced _ _ (by decide) (by decide) plainly spaciously⟩

end ReadBack

end OpLang.PrecedenceTable
