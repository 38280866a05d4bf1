/-
**Tables and their entries.**

A table is known by the precedences that it gives. When entries are added one after the other, the last
one for an operator holds (`get?_insertAll`), and a table made of entries alone has as many operators as
these name (`size_insertAll_empty`). The order of entries for different operators does not count
(`lookup_eq_of_perm`), and two tables have the same entries exactly if they give the same precedences
(`sameEntries_iff`).
-/

import Mathlib.Data.Finset.Card
import Mathlib.Data.List.Perm.Subperm
import OpLang.PrecedenceTable

namespace OpLang.PrecedenceTable

/-! ### Lists of entries -/

section Lists

variable {entries others : List (String × UInt16)} {operator : String} {precedence : UInt16}

/-- Where operators are distinct, the entry that is found is the only one for its operator. -/
theorem lookup_eq_some_iff_mem (distinct : (entries.map Prod.fst).Nodup) :
    entries.lookup operator = some precedence ↔ (operator, precedence) ∈ entries := by
  induction entries with
  | nil => simp
  | cons entry others ih =>
    obtain ⟨fresh, distinct⟩ := List.nodup_cons.mp distinct
    rw [lookup_cons, List.mem_cons, ← ih distinct]
    by_cases same : operator = entry.1
    · have absent : others.lookup operator ≠ some precedence := by
        rw [same]
        exact fun found => fresh (List.mem_map.mpr ⟨_, (ih distinct).mp (same ▸ found), same⟩)
      rw [if_pos same, Option.some_inj, Prod.ext_iff]
      exact ⟨fun value => .inl ⟨same, value.symm⟩, fun h => (h.resolve_right absent).2.symm⟩
    · rw [if_neg same]
      exact ⟨.inr, fun h => h.resolve_left fun equal => same (congrArg Prod.fst equal)⟩

/-- **The order of entries for different operators does not count.** -/
theorem lookup_eq_of_perm (distinct : (entries.map Prod.fst).Nodup) (reordered : others.Perm entries) :
    others.lookup operator = entries.lookup operator := by
  have distinct' : (others.map Prod.fst).Nodup := (reordered.map Prod.fst).nodup_iff.mpr distinct
  refine Option.ext fun precedence => ?_
  rw [lookup_eq_some_iff_mem distinct, lookup_eq_some_iff_mem distinct', reordered.mem_iff]

end Lists

/-! ### Entries of a table -/

section Tables

variable {table other : PrecedenceTable} {operator : String} {precedence : UInt16}

theorem get?_eq_some_iff :
    table.get? operator = some precedence ↔ (operator, precedence) ∈ table.entries :=
  lookup_eq_some_iff_mem table.distinct

theorem mem_operators_iff :
    operator ∈ table.entries.map Prod.fst ↔ ∃ precedence, table.get? operator = some precedence := by
  simp only [get?_eq_some_iff, List.mem_map, Prod.exists, exists_and_right, exists_eq_right]

/-- **Tables with the same entries are those that give the same precedences.** -/
theorem sameEntries_iff :
    table.sameEntries other = true ↔ ∀ operator, other.get? operator = table.get? operator := by
  unfold sameEntries
  rw [Bool.and_eq_true, beq_iff_eq, List.all_eq_true]
  constructor
  · rintro ⟨size, known⟩ operator
    have inside : table.entries ⊆ other.entries := fun entry member =>
      get?_eq_some_iff.mp (beq_iff_eq.mp (known entry member))
    have entries : table.entries.Nodup := .of_map _ table.distinct
    have reordered := (entries.subperm inside).perm_of_length_le (Nat.le_of_eq size.symm)
    exact (lookup_eq_of_perm other.distinct reordered).symm
  · intro same
    have members : ∀ entry, entry ∈ table.entries ↔ entry ∈ other.entries := fun entry => by
      rw [← get?_eq_some_iff, ← get?_eq_some_iff, same]
    have reordered := (List.perm_ext_iff_of_nodup (.of_map _ table.distinct)
      (.of_map _ other.distinct)).mpr members
    exact ⟨reordered.length_eq, fun entry member => beq_iff_eq.mpr
      (get?_eq_some_iff.mpr ((members entry).mp member))⟩

end Tables

/-! ### Entries added one after the other -/

/-- The table with some entries added, of which the later replace the earlier. -/
def insertAll (table : PrecedenceTable) (additions : List (String × UInt16)) : PrecedenceTable :=
  additions.foldl (fun table entry => table.insert entry.1 entry.2) table

section Additions

variable {table : PrecedenceTable} {additions : List (String × UInt16)} {operator : String}

/-- **The last entry for an operator holds,** and without one the operator keeps its precedence. -/
theorem get?_insertAll :
    (table.insertAll additions).get? operator =
      (additions.reverse.lookup operator).or (table.get? operator) := by
  unfold insertAll
  induction additions generalizing table with
  | nil => rfl
  | cons entry additions ih =>
    rw [List.foldl_cons, ih, get?_insert, List.reverse_cons, List.lookup_append, Option.or_assoc,
      lookup_cons]
    by_cases same : operator = entry.1
    · rw [if_pos same, if_pos same, Option.some_or]
    · rw [if_neg same, if_neg same, List.lookup_nil, Option.none_or]

theorem get?_insertAll_of_not_mem (apart : operator ∉ additions.map Prod.fst) :
    (table.insertAll additions).get? operator = table.get? operator := by
  have absent : additions.reverse.lookup operator = none := by
    rw [List.lookup_eq_none_iff]
    intro entry member
    refine bne_iff_ne.mpr fun same => apart ?_
    exact List.mem_map.mpr ⟨entry, List.mem_reverse.mp member, same.symm⟩
  rw [get?_insertAll, absent, Option.none_or]

/-- The entries of a table made of them alone. -/
theorem get?_insertAll_empty :
    (empty.insertAll additions).get? operator = additions.reverse.lookup operator := by
  rw [get?_insertAll, get?_empty, Option.or_none]

/-- **A table made of entries has as many operators as they name.** -/
theorem size_insertAll_empty :
    (empty.insertAll additions).size = (additions.map Prod.fst).toFinset.card := by
  have named : ((empty.insertAll additions).entries.map Prod.fst).toFinset =
      (additions.map Prod.fst).toFinset := by
    ext operator
    rw [List.mem_toFinset, List.mem_toFinset, mem_operators_iff, ← Option.isSome_iff_exists,
      get?_insertAll_empty, List.lookup_isSome_iff]
    simp only [List.mem_reverse, List.mem_map, beq_iff_eq, @eq_comm _ operator]
  rw [← named, List.toFinset_card_of_nodup (empty.insertAll additions).distinct, List.length_map]
  rfl

end Additions

end OpLang.PrecedenceTable
