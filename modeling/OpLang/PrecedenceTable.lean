/-
**Precedence tables.**

A table gives some operators a precedence, a number below `2 ^ 16`; the higher one binds tighter.
The view of a table is `get?`. An operator has at most one entry, so inserting replaces
(`get?_insert`). An operator without an entry has the binding power `-1`, below that of every other.
-/

namespace OpLang

/-- Operators with their precedences, each operator once. -/
structure PrecedenceTable where
  entries : List (String × UInt16)
  distinct : (entries.map Prod.fst).Nodup
deriving DecidableEq

namespace PrecedenceTable

/-! ### Entries -/

/-- The entries with a precedence put for an operator, in place of its old entry or at the end. -/
def put (operator : String) (precedence : UInt16) : List (String × UInt16) → List (String × UInt16)
  | [] => [(operator, precedence)]
  | entry :: others =>
    if entry.1 = operator then (operator, precedence) :: others
    else entry :: put operator precedence others

/-- Putting keeps the operators, or adds the one that was missing. -/
theorem mem_put {operator : String} {precedence : UInt16} {entries : List (String × UInt16)}
    {other : String} :
    other ∈ (put operator precedence entries).map Prod.fst ↔
      other = operator ∨ other ∈ entries.map Prod.fst := by
  induction entries with
  | nil => simp [put]
  | cons entry others ih =>
    by_cases same : entry.1 = operator
    · simp [put, same]
    · simp only [put, same, if_false, List.map_cons, List.mem_cons, ih]
      constructor
      · rintro (h | h | h) <;> simp [h]
      · rintro (h | h | h) <;> simp [h]

/-- Putting keeps the operators distinct. -/
theorem put_distinct {operator : String} {precedence : UInt16} {entries : List (String × UInt16)}
    (distinct : (entries.map Prod.fst).Nodup) :
    ((put operator precedence entries).map Prod.fst).Nodup := by
  induction entries with
  | nil => simp [put]
  | cons entry others ih =>
    simp only [List.map_cons, List.nodup_cons] at distinct
    by_cases same : entry.1 = operator
    · subst same
      simpa [put] using distinct
    · simp only [put, same, if_false, List.map_cons, List.nodup_cons]
      refine ⟨fun member => ?_, ih distinct.2⟩
      rcases mem_put.mp member with equal | old
      · exact same equal
      · exact distinct.1 old

/-! ### Tables -/

/-- The table without entries: no operator joins expressions. -/
def empty : PrecedenceTable := ⟨[], List.nodup_nil⟩

/-- The precedence of an operator that has one. -/
def get? (table : PrecedenceTable) (operator : String) : Option UInt16 :=
  table.entries.lookup operator

/-- The table with the given precedence for an operator. -/
def insert (table : PrecedenceTable) (operator : String) (precedence : UInt16) : PrecedenceTable :=
  ⟨put operator precedence table.entries, put_distinct table.distinct⟩

/-- The number of operators in the table. -/
def size (table : PrecedenceTable) : Nat := table.entries.length

/-- Whether the table has no entries. -/
def isEmpty (table : PrecedenceTable) : Bool := table.entries.isEmpty

/-- The table of a list of operators with precedences, of which the later replace the earlier. -/
def ofList (pairs : List (String × UInt16)) : PrecedenceTable :=
  pairs.foldl (fun table pair => table.insert pair.1 pair.2) empty

/-- The table used when none is given. -/
def standard : PrecedenceTable :=
  ofList [("<", 10), ("+", 20), ("-", 20), ("*", 40)]

/-- The binding power of what is no operator of the table. -/
def noOperator : Int := -1

/-- The binding power of an operator: its precedence, or that of no operator. -/
def bindingPower (table : PrecedenceTable) (operator : String) : Int :=
  match table.get? operator with
  | some precedence => precedence.toNat
  | none => noOperator

/-- Whether two tables have the same entries, in whatever order. -/
def sameEntries (table other : PrecedenceTable) : Bool :=
  table.size == other.size &&
    table.entries.all fun entry => other.get? entry.1 == some entry.2

/-! ### Facts -/

theorem lookup_cons (entry : String × UInt16) (others : List (String × UInt16))
    (operator : String) :
    (entry :: others).lookup operator =
      if operator = entry.1 then some entry.2 else others.lookup operator := by
  by_cases same : operator = entry.1
  · rw [if_pos same, List.lookup_cons, beq_iff_eq.mpr same]
  · rw [if_neg same, List.lookup_cons, beq_eq_false_iff_ne.mpr same]

theorem lookup_put (operator : String) (precedence : UInt16) (entries : List (String × UInt16))
    (other : String) :
    (put operator precedence entries).lookup other =
      if other = operator then some precedence else entries.lookup other := by
  induction entries with
  | nil => simp [put, lookup_cons]
  | cons entry others ih =>
    by_cases same : entry.1 = operator
    · simp only [put, same, if_true, lookup_cons]
      split <;> rfl
    · simp only [put, same, if_false, lookup_cons, ih]
      split
      · rename_i equal
        have different : other ≠ operator := fun h => same (equal.symm.trans h)
        simp [different]
      · rfl

/-- **Inserting replaces:** the inserted operator has the new precedence and every other its old. -/
@[simp]
theorem get?_insert (table : PrecedenceTable) (operator : String) (precedence : UInt16)
    (other : String) :
    (table.insert operator precedence).get? other =
      if other = operator then some precedence else table.get? other :=
  lookup_put operator precedence table.entries other

@[simp]
theorem get?_empty (operator : String) : empty.get? operator = none := rfl

end PrecedenceTable

end OpLang
