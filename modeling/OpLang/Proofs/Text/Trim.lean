/-
**Trimming.**

Trimming takes blanks off the ends of a text and stops at the first character that is none. What it leaves
is told by how the text is made: blanks, a part that neither begins nor ends with a blank, and blanks again
(`TrimsTo`). Every text is made like this in exactly one way, so trimming finds this part
(`trim_eq_iff`).
-/

import Mathlib.Data.List.Basic
import Mathlib.Data.List.TakeWhile
import OpLang.Text.Blank

namespace OpLang.Text

/-! ### One end -/

/-- Dropping stops at a character without the property. -/
theorem dropWhile_append_cons {property : Char → Bool} {c : Char} (stops : property c = false)
    (front back : List Char) :
    (front ++ c :: back).dropWhile property = front.dropWhile property ++ c :: back := by
  induction front with
  | nil => exact List.dropWhile_cons_of_neg (by simp [stops])
  | cons d front ih =>
    by_cases drops : property d = true
    · rw [List.cons_append, List.dropWhile_cons_of_pos drops, List.dropWhile_cons_of_pos drops, ih]
    · rw [List.cons_append, List.dropWhile_cons_of_neg drops, List.dropWhile_cons_of_neg drops]
      rfl

/-- Trimming leaves the start of a text. -/
theorem trimEnd_isPrefix (text : List Char) : trimEnd text <+: text := by
  unfold trimEnd
  rw [← List.reverse_suffix, List.reverse_reverse]
  exact List.dropWhile_suffix _

/-- A blank at the end is trimmed. -/
theorem trimEnd_append_blank {c : Char} (white : isBlank c = true) (text : List Char) :
    trimEnd (text ++ [c]) = trimEnd text := by
  unfold trimEnd
  rw [List.reverse_append, List.reverse_singleton, List.singleton_append,
    List.dropWhile_cons_of_pos white]

/-- Trimming stops at a character that is no blank. -/
theorem trimEnd_append_of_not_blank {c : Char} (graphic : isBlank c = false)
    (front back : List Char) : trimEnd (front ++ c :: back) = front ++ c :: trimEnd back := by
  unfold trimEnd
  rw [List.reverse_append, List.reverse_cons, List.append_assoc, List.singleton_append,
    dropWhile_append_cons graphic, List.reverse_append, List.reverse_cons, List.reverse_reverse,
    List.append_assoc, List.singleton_append]

/-! ### Both ends -/

/-- Whether a text holds nothing but blanks. -/
def AllBlank (text : List Char) : Prop := ∀ c ∈ text, isBlank c = true

/-- Whether a text neither begins nor ends with a blank. -/
structure IsTrimmed (text : List Char) : Prop where
  first : ∀ c ∈ text.head?, isBlank c = false
  last : ∀ c ∈ text.getLast?, isBlank c = false

-- The instances are given by name: a search may come upon the one that goes through all characters.
instance (text : List Char) : Decidable (AllBlank text) :=
  List.decidableBAll (fun c => isBlank c = true) text

instance (text : List Char) : Decidable (IsTrimmed text) :=
  @decidable_of_iff _ ((∀ c ∈ text.head?, isBlank c = false) ∧ ∀ c ∈ text.getLast?, isBlank c = false)
    ⟨fun ⟨first, last⟩ => ⟨first, last⟩, fun ⟨first, last⟩ => ⟨first, last⟩⟩
    (@instDecidableAnd _ _ text.head?.decidableForallMem text.getLast?.decidableForallMem)

/-- **Whether a text is `core` with blanks around it,** none of which belongs to `core`. -/
structure TrimsTo (text core : List Char) : Prop where
  stands : ∃ front back, text = front ++ core ++ back ∧ AllBlank front ∧ AllBlank back
  trimmed : IsTrimmed core

variable {front core back text : List Char}

theorem IsTrimmed.of_forall (solid : ∀ c ∈ text, isBlank c = false) : IsTrimmed text where
  first c head := solid c (List.mem_of_mem_head? head)
  last c last := solid c (List.mem_of_mem_getLast? last)

/-- What stands between two trimmed texts does not show at the ends. -/
theorem IsTrimmed.append (before : IsTrimmed front) (behind : IsTrimmed back) (begins : front ≠ [])
    (ends : back ≠ []) (between : List Char) : IsTrimmed (front ++ between ++ back) where
  first c head := by
    rw [List.append_assoc, List.head?_append_of_ne_nil _ begins] at head
    exact before.first c head
  last c last := by
    rw [List.getLast?_append_of_ne_nil _ ends] at last
    exact behind.last c last

theorem AllBlank.trim_eq_nil (white : AllBlank text) : trim text = [] := by
  unfold trim trimStart
  rw [List.dropWhile_eq_nil_iff.mpr white]
  rfl

/-- Blanks around a trimmed part are taken off it. -/
theorem IsTrimmed.trim_eq (trimmed : IsTrimmed core) (before : AllBlank front)
    (behind : AllBlank back) : trim (front ++ core ++ back) = core := by
  cases core with
  | nil =>
    refine AllBlank.trim_eq_nil fun c member => ?_
    rw [List.append_nil] at member
    exact (List.mem_append.mp member).elim (before c) (behind c)
  | cons c core =>
    have starts : trimStart (front ++ (c :: core) ++ back) = (c :: core) ++ back := by
      unfold trimStart
      rw [List.append_assoc, List.dropWhile_append_of_pos before, List.cons_append,
        List.dropWhile_cons_of_neg (by simp [trimmed.first c rfl])]
    obtain ⟨inner, last, whole⟩ := (List.eq_nil_or_concat (c :: core)).resolve_left nofun
    rw [List.concat_eq_append] at whole
    have solid : isBlank last = false := by
      refine trimmed.last last ?_
      rw [whole, List.getLast?_concat]
      rfl
    have ends : trimEnd back = [] := by
      unfold trimEnd
      rw [List.dropWhile_eq_nil_iff.mpr fun d member => behind d (List.mem_reverse.mp member)]
      rfl
    unfold trim
    rw [starts, whole, List.append_assoc, List.singleton_append, trimEnd_append_of_not_blank solid, ends]

/-- A text is what trimming leaves of it, with blanks around that. -/
theorem trimsTo_trim (text : List Char) : TrimsTo text (trim text) := by
  have starts := List.takeWhile_append_dropWhile (p := isBlank) (l := text)
  have ends := List.takeWhile_append_dropWhile (p := isBlank) (l := (trimStart text).reverse)
  have whole : trim text ++ ((trimStart text).reverse.takeWhile isBlank).reverse = trimStart text := by
    have reversed := congrArg List.reverse ends
    rwa [List.reverse_append, List.reverse_reverse] at reversed
  refine ⟨⟨text.takeWhile isBlank, ((trimStart text).reverse.takeWhile isBlank).reverse, ?_, ?_, ?_⟩,
    ⟨fun c head => ?_, fun c last => ?_⟩⟩
  · rw [List.append_assoc, whole]
    exact starts.symm
  · exact fun c member => List.mem_takeWhile_imp member
  · exact fun c member => List.mem_takeWhile_imp (List.mem_reverse.mp member)
  · have stops := List.head?_dropWhile_not isBlank text
    have begins : (trimStart text).head? = some c := by
      rw [← whole, List.head?_append, Option.mem_def.mp head]
      rfl
    rw [show text.dropWhile isBlank = trimStart text from rfl, begins] at stops
    simpa using stops
  · have stops := List.head?_dropWhile_not isBlank (trimStart text).reverse
    have ending : ((trimStart text).reverse.dropWhile isBlank).head? = some c := by
      rw [← List.getLast?_reverse]
      exact last
    rw [ending] at stops
    simpa using stops

/-- **Trimming finds the part between the blanks.** -/
theorem trim_eq_iff : trim text = core ↔ TrimsTo text core := by
  constructor
  · rintro rfl
    exact trimsTo_trim text
  · rintro ⟨⟨front, back, rfl, before, behind⟩, trimmed⟩
    exact trimmed.trim_eq before behind

end OpLang.Text
