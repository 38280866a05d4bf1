/-
**Texts measured in bytes.**

Every offset of this library counts the bytes of a text's UTF-8 form. `byteLength` measures a text
and `dropBytes?`, `takeBytes?` cut it; a cut past the end or inside a character has no answer. The
two parts of a cut join to the whole (`take_append_drop`) and the first has the length that was
asked for (`byteLength_take`).
-/

namespace OpLang.Text

/-- The number of bytes in the UTF-8 form of a text. -/
def byteLength : List Char → Nat
  | [] => 0
  | c :: rest => c.utf8Size + byteLength rest

/-- What follows the first `count` bytes. -/
def dropBytes? : Nat → List Char → Option (List Char)
  | 0, text => some text
  | _ + 1, [] => none
  | count + 1, c :: rest =>
    if c.utf8Size ≤ count + 1 then dropBytes? (count + 1 - c.utf8Size) rest else none

/-- The first `count` bytes. -/
def takeBytes? : Nat → List Char → Option (List Char)
  | 0, _ => some []
  | _ + 1, [] => none
  | count + 1, c :: rest =>
    if c.utf8Size ≤ count + 1 then (takeBytes? (count + 1 - c.utf8Size) rest).map (c :: ·) else none

@[simp]
theorem byteLength_nil : byteLength [] = 0 := rfl

@[simp]
theorem byteLength_cons (c : Char) (rest : List Char) :
    byteLength (c :: rest) = c.utf8Size + byteLength rest := rfl

@[simp]
theorem byteLength_append (first second : List Char) :
    byteLength (first ++ second) = byteLength first + byteLength second := by
  induction first with
  | nil => simp
  | cons c rest ih => simp [ih, Nat.add_assoc]

/-- Only the empty text has no bytes. -/
theorem byteLength_eq_zero {text : List Char} : byteLength text = 0 ↔ text = [] := by
  cases text with
  | nil => simp
  | cons c rest => have := c.utf8Size_pos; simp; omega

/-- Dropping as many bytes as the first part has leaves the second part. -/
theorem dropBytes?_append (first second : List Char) :
    dropBytes? (byteLength first) (first ++ second) = some second := by
  induction first with
  | nil => simp [dropBytes?]
  | cons c rest ih =>
    have positive := c.utf8Size_pos
    obtain ⟨count, equal⟩ : ∃ count, c.utf8Size + byteLength rest = count + 1 :=
      ⟨c.utf8Size + byteLength rest - 1, by omega⟩
    have fits : c.utf8Size ≤ count + 1 := by omega
    have left : count + 1 - c.utf8Size = byteLength rest := by omega
    simp [equal, dropBytes?, fits, left, ih]

/-- **The parts of a cut.** A cut has both parts or neither, and they join to the whole. -/
theorem take_append_drop {count : Nat} {text front : List Char}
    (taken : takeBytes? count text = some front) :
    ∃ back, dropBytes? count text = some back ∧ front ++ back = text := by
  induction text generalizing count front with
  | nil => cases count <;> simp_all [takeBytes?, dropBytes?]
  | cons c rest ih =>
    cases count with
    | zero => simp_all [takeBytes?, dropBytes?]
    | succ count =>
      simp only [takeBytes?, dropBytes?] at taken ⊢
      split at taken
      · rename_i fits
        obtain ⟨inner, found, rfl⟩ := Option.map_eq_some_iff.mp taken
        obtain ⟨back, dropped, joined⟩ := ih found
        exact ⟨back, by simp [fits, dropped], by simp [joined]⟩
      · simp at taken

/-- The first part of a cut has the length that was asked for. -/
theorem byteLength_take {count : Nat} {text front : List Char}
    (taken : takeBytes? count text = some front) : byteLength front = count := by
  induction text generalizing count front with
  | nil => cases count <;> simp_all [takeBytes?]
  | cons c rest ih =>
    cases count with
    | zero => simp_all [takeBytes?]
    | succ count =>
      simp only [takeBytes?] at taken
      split at taken
      · rename_i fits
        obtain ⟨inner, found, rfl⟩ := Option.map_eq_some_iff.mp taken
        have := ih found
        simp
        omega
      · simp at taken

end OpLang.Text
