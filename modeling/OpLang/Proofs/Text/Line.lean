/-
**Where an offset lies in the lines of a text.**

A text, and a place between two of its characters, fall into four parts (`InLine`): whole lines in front,
what stands in the line before the place and behind it, and what stands behind the line, which begins with
a newline unless the text is over. Every place has such parts (`exists_inLine`).

`locate_of_inLine`: the place that is found for the offset has the number and the text of this line, and
the offset in it. The proof takes whole lines off the front, one after the other; the number of the line
goes up with each, so it is generalised.
-/

import Mathlib.Data.List.TakeWhile
import OpLang.Text.Line

namespace OpLang.Text

/-! ### Parts of a text -/

/-- Whole lines, each ended by its newline. -/
inductive WholeLines : List Char → Prop where
  | nothing : WholeLines []
  | line {line others : List Char} (inside : '\n' ∉ line) (further : WholeLines others) :
      WholeLines (line ++ '\n' :: others)

/-- **What stands around a place in a text:** whole lines, the line before and behind the place, and what
stands behind the line. -/
structure InLine (text earlier before behind later : List Char) : Prop where
  whole : text = earlier ++ before ++ (behind ++ later)
  wholeLines : WholeLines earlier
  before_inside : '\n' ∉ before
  behind_inside : '\n' ∉ behind
  stops : ∀ c ∈ later.head?, c = '\n'

/-- A text is whole lines and a part without a newline. -/
theorem exists_wholeLines (text : List Char) :
    ∃ earlier before, text = earlier ++ before ∧ WholeLines earlier ∧ '\n' ∉ before := by
  induction text with
  | nil => exact ⟨[], [], rfl, .nothing, List.not_mem_nil⟩
  | cons c rest ih =>
    obtain ⟨earlier, before, rfl, wholeLines, inside⟩ := ih
    by_cases newline : c = '\n'
    · subst newline
      exact ⟨[] ++ '\n' :: earlier, before, rfl, .line List.not_mem_nil wholeLines, inside⟩
    · cases wholeLines with
      | nothing =>
        refine ⟨[], c :: before, rfl, .nothing, fun member => ?_⟩
        rcases List.mem_cons.mp member with same | further
        · exact newline same.symm
        · exact inside further
      | @line line others clean further =>
        refine ⟨(c :: line) ++ '\n' :: others, before, rfl, .line (fun member => ?_) further, inside⟩
        rcases List.mem_cons.mp member with same | earlier
        · exact newline same.symm
        · exact clean earlier

theorem newline_not_mem_takeWhile (text : List Char) : '\n' ∉ text.takeWhile (· ≠ '\n') := by
  intro member
  simpa using List.mem_takeWhile_imp member

/-- Behind the characters up to a newline the text is over, or that newline stands. -/
theorem eq_newline_of_head?_dropWhile (text : List Char) :
    ∀ c ∈ (text.dropWhile (· ≠ '\n')).head?, c = '\n' := by
  intro c head
  have stopped := List.head?_dropWhile_not (p := fun c => decide (c ≠ '\n')) (l := text)
  rw [Option.mem_def.mp head] at stopped
  simpa using stopped

/-- **Every place in a text lies in a line.** -/
theorem exists_inLine (front back : List Char) :
    ∃ earlier before behind later, InLine (front ++ back) earlier before behind later ∧
      front = earlier ++ before ∧ back = behind ++ later := by
  obtain ⟨earlier, before, rfl, wholeLines, inside⟩ := exists_wholeLines front
  have split := List.takeWhile_append_dropWhile (p := (· ≠ '\n')) (l := back)
  refine ⟨earlier, before, back.takeWhile (· ≠ '\n'), back.dropWhile (· ≠ '\n'), ?_, rfl, split.symm⟩
  refine ⟨?_, wholeLines, inside, newline_not_mem_takeWhile back, eq_newline_of_head?_dropWhile back⟩
  rw [split]

/-! ### Lines -/

/-- The first line of a text goes up to the first newline. -/
theorem lines_newline {line : List Char} (inside : '\n' ∉ line) (rest : List Char) :
    lines (line ++ '\n' :: rest) = (line ++ ['\n'], (lines rest).1 :: (lines rest).2) := by
  induction line with
  | nil => rfl
  | cons c line ih =>
    obtain ⟨noNewline, inside⟩ := not_or.mp (mt List.mem_cons.mpr inside)
    rw [List.cons_append, lines, ih inside]
    simp [Ne.symm noNewline]

/-- A text without a newline is one line. -/
theorem lines_of_not_mem {line : List Char} (inside : '\n' ∉ line) : lines line = (line, []) := by
  induction line with
  | nil => rfl
  | cons c line ih =>
    obtain ⟨noNewline, inside⟩ := not_or.mp (mt List.mem_cons.mpr inside)
    rw [lines, ih inside]
    simp [Ne.symm noNewline]

/-- The place of an offset in a text whose first line has the given number. -/
def locateFrom (number : Nat) (text : List Char) (offset : Nat) : Place :=
  placeIn number (lines text).1 (lines text).2 offset

/-- What stands behind a line is found from its number on. -/
theorem locateFrom_newline {line : List Char} (inside : '\n' ∉ line) (number offset : Nat)
    (rest : List Char) :
    locateFrom number (line ++ '\n' :: rest) (byteLength (line ++ ['\n']) + offset) =
      locateFrom (number + 1) rest offset := by
  unfold locateFrom
  rw [lines_newline inside, placeIn, if_neg (Nat.not_lt_of_le (Nat.le_add_right _ _)),
    Nat.add_sub_cancel_left]

/-- A place in the first line. -/
theorem locateFrom_first {before behind later : List Char} (number : Nat)
    (before_inside : '\n' ∉ before) (behind_inside : '\n' ∉ behind)
    (stops : ∀ c ∈ later.head?, c = '\n') :
    locateFrom number (before ++ (behind ++ later)) (byteLength before) =
      ⟨number, before ++ behind ++ later.take 1, byteLength before⟩ := by
  have inside : '\n' ∉ before ++ behind := fun member =>
    (List.mem_append.mp member).elim before_inside behind_inside
  unfold locateFrom
  rw [← List.append_assoc]
  cases later with
  | nil =>
    rw [List.append_nil, lines_of_not_mem inside, placeIn, byteLength_append,
      Nat.min_eq_left (Nat.le_add_right _ _)]
    simp
  | cons c later =>
    obtain rfl := stops c rfl
    have within : byteLength before < byteLength (before ++ behind ++ ['\n']) := by
      simp only [byteLength_append, byteLength_cons]
      have := Char.utf8Size_pos '\n'
      omega
    rw [lines_newline inside, placeIn, if_pos within]
    rfl

/-- **The place of an offset** has the number and the text of the line where it lies, and the offset in
this line. -/
theorem locate_of_inLine {text earlier before behind later : List Char}
    (parts : InLine text earlier before behind later) :
    locate text (byteLength (earlier ++ before)) =
      ⟨earlier.count '\n' + 1, before ++ behind ++ later.take 1, byteLength before⟩ := by
  obtain ⟨rfl, wholeLines, before_inside, behind_inside, stops⟩ := parts
  have onward : ∀ number,
      locateFrom number (earlier ++ before ++ (behind ++ later)) (byteLength (earlier ++ before)) =
        ⟨earlier.count '\n' + number, before ++ behind ++ later.take 1, byteLength before⟩ := by
    induction wholeLines with
    | nothing =>
      intro number
      rw [List.nil_append, locateFrom_first number before_inside behind_inside stops]
      simp
    | @line line others inside _ ih =>
      intro number
      have size : byteLength (line ++ '\n' :: others ++ before) =
          byteLength (line ++ ['\n']) + byteLength (others ++ before) := by
        simp [Nat.add_assoc]
      have clean : line.count '\n' = 0 := List.count_eq_zero.mpr inside
      rw [size, List.append_assoc, List.append_assoc, List.cons_append,
        locateFrom_newline inside, ← List.append_assoc, ih (number + 1)]
      rw [List.count_append, List.count_cons_self, clean, Nat.zero_add, Nat.add_assoc,
        Nat.add_comm number 1]
  exact onward 1

example : locate "a\n\u00e9b".toList 4 = ⟨2, ['\u00e9', 'b'], 2⟩ := by decide

end OpLang.Text
