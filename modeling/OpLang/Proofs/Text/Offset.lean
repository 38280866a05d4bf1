/-
**Lines around byte offsets.**

An offset counts bytes, and may lie on a newline, inside a character or past the end. Among the bytes of a
text, the line around an offset goes from behind the last newline before it to behind the next one that is
not before it (`LineAround`). Newlines can be told by their byte, since no other character has it in its
UTF-8 form (`newline_mem_bytes_iff`).

`locate_isLineAround`: the place of an offset has the number and the text of the line around it. Whole lines
are taken off the front: behind a newline all offsets are moved by the same length (`LineAround.behind`).
-/

import OpLang.Proofs.Text.Line

namespace OpLang.Text

/-! ### Bytes -/

/-- The bytes of the UTF-8 form of a text. -/
def bytes (text : List Char) : List UInt8 := text.flatMap String.utf8EncodeChar

/-- The byte of a newline. -/
def newlineByte : UInt8 := 10

theorem bytes_cons (c : Char) (rest : List Char) :
    bytes (c :: rest) = String.utf8EncodeChar c ++ bytes rest := List.flatMap_cons

@[simp]
theorem length_bytes (text : List Char) : (bytes text).length = byteLength text := by
  induction text with
  | nil => rfl
  | cons c rest ih =>
    rw [bytes_cons, List.length_append, String.length_utf8EncodeChar, ih, byteLength_cons]

/-- A byte of a character is its code, or no code of an ASCII character. -/
theorem toNat_of_mem_utf8EncodeChar {c : Char} {byte : UInt8} (member : byte ∈ String.utf8EncodeChar c) :
    byte.toNat = c.val.toNat ∨ 128 ≤ byte.toNat := by
  unfold String.utf8EncodeChar at member
  dsimp only at member
  split at member
  · obtain rfl := List.mem_singleton.mp member
    rw [UInt8.toNat_ofNat']
    omega
  · right
    split at member
    · simp only [List.mem_cons, List.not_mem_nil, or_false] at member
      rcases member with rfl | rfl <;> rw [UInt8.toNat_ofNat'] <;> omega
    · split at member
      · simp only [List.mem_cons, List.not_mem_nil, or_false] at member
        rcases member with rfl | rfl | rfl <;> rw [UInt8.toNat_ofNat'] <;> omega
      · simp only [List.mem_cons, List.not_mem_nil, or_false] at member
        rcases member with rfl | rfl | rfl | rfl <;> rw [UInt8.toNat_ofNat'] <;> omega

/-- Only a newline has the byte of a newline in its UTF-8 form. -/
theorem newline_mem_utf8EncodeChar_iff {c : Char} :
    newlineByte ∈ String.utf8EncodeChar c ↔ c = '\n' := by
  constructor
  · intro member
    have code : newlineByte.toNat = c.val.toNat :=
      (toNat_of_mem_utf8EncodeChar member).resolve_right (by decide)
    exact Char.ext (UInt32.toNat_inj.mp code.symm)
  · rintro rfl
    decide

theorem newline_mem_bytes_iff {text : List Char} : newlineByte ∈ bytes text ↔ '\n' ∈ text := by
  unfold bytes
  simp only [List.mem_flatMap, newline_mem_utf8EncodeChar_iff, exists_eq_right]

theorem bytes_newline (line rest : List Char) :
    bytes (line ++ '\n' :: rest) = bytes line ++ newlineByte :: bytes rest := List.flatMap_append

/-! ### Lines among bytes -/

/-- **Whether the line around an offset goes from `start` to `stop`:** it starts right behind the last newline
before the offset, or where the bytes begin if there is none, and stops right behind the next newline that is
not before the offset, or where the bytes end. -/
structure LineAround (bytes : List UInt8) (offset start stop : Nat) : Prop where
  start_le : start ≤ offset
  le_stop : offset ≤ stop
  begins : start = 0 ∨ ∃ before, start = before + 1 ∧ bytes[before]? = some newlineByte
  inside : newlineByte ∉ (bytes.take offset).drop start
  ends : (stop = bytes.length ∧ newlineByte ∉ bytes.drop offset) ∨
    ∃ next, stop = next + 1 ∧ offset ≤ next ∧ bytes[next]? = some newlineByte ∧
      newlineByte ∉ (bytes.take next).drop offset

section LineAround

variable {front line rest : List UInt8} {offset start stop : Nat}

/-- Bytes without a newline are one line. -/
theorem lineAround_of_not_mem (clean : newlineByte ∉ line) (within : offset ≤ line.length) :
    LineAround line offset 0 line.length where
  start_le := Nat.zero_le _
  le_stop := within
  begins := .inl rfl
  inside member := clean (List.mem_of_mem_take member)
  ends := .inl ⟨rfl, fun member => clean (List.mem_of_mem_drop member)⟩

/-- The first line goes up to the first newline. -/
theorem lineAround_first (clean : newlineByte ∉ line) (within : offset ≤ line.length)
    (rest : List UInt8) : LineAround (line ++ newlineByte :: rest) offset 0 (line.length + 1) where
  start_le := Nat.zero_le _
  le_stop := Nat.le_succ_of_le within
  begins := .inl rfl
  inside member := by
    rw [List.drop_zero, List.take_append_of_le_length within] at member
    exact clean (List.mem_of_mem_take member)
  ends := by
    refine .inr ⟨line.length, rfl, within, List.getElem?_append_right (Nat.le_refl _) ▸ ?_,
      fun member => ?_⟩
    · rw [Nat.sub_self]
      rfl
    · rw [List.take_left] at member
      exact clean (List.mem_of_mem_drop member)

/-- **Behind a newline all offsets are moved by the same length.** -/
theorem LineAround.behind (around : LineAround rest offset start stop)
    (ended : front.getLast? = some newlineByte) :
    LineAround (front ++ rest) (front.length + offset) (front.length + start)
      (front.length + stop) where
  start_le := Nat.add_le_add_left around.start_le _
  le_stop := Nat.add_le_add_left around.le_stop _
  begins := by
    obtain ⟨line, rfl⟩ := List.getLast?_eq_some_iff.mp ended
    rcases around.begins with rfl | ⟨before, rfl, newline⟩
    · refine .inr ⟨line.length, by simp, ?_⟩
      rw [List.append_assoc, List.getElem?_append_right (Nat.le_refl _), Nat.sub_self]
      rfl
    · refine .inr ⟨(line ++ [newlineByte]).length + before, rfl, ?_⟩
      rwa [List.getElem?_append_right (Nat.le_add_right _ _), Nat.add_sub_cancel_left]
  inside := by
    rw [List.take_length_add_append, List.drop_length_add_append]
    exact around.inside
  ends := by
    rcases around.ends with ⟨rfl, clean⟩ | ⟨next, rfl, within, newline, clean⟩
    · refine .inl ⟨List.length_append.symm, ?_⟩
      rwa [List.drop_length_add_append]
    · refine .inr ⟨front.length + next, rfl, Nat.add_le_add_left within _, ?_, ?_⟩
      · rwa [List.getElem?_append_right (Nat.le_add_right _ _), Nat.add_sub_cancel_left]
      · rwa [List.take_length_add_append, List.drop_length_add_append]

end LineAround

/-! ### Places -/

/-- **Whether a place is that of an offset** in a text whose first line has the given number: its number
counts the newlines before the offset, its text is the line around the offset, and its offset is counted from
where this line starts. -/
structure Place.IsOf (place : Place) (number : Nat) (text : List Char) (offset start stop : Nat) : Prop where
  around : LineAround (bytes text) offset start stop
  line : place.line = number + ((bytes text).take offset).count newlineByte
  text : bytes place.text = ((bytes text).take stop).drop start
  offset : place.offset = offset - start

section Places

variable {line rest text : List Char} {place : Place} {number offset start stop : Nat}

/-- A text without a newline is one line, where offsets past the end stand at its end. -/
theorem locateFrom_of_not_mem (clean : '\n' ∉ text) (number position : Nat) :
    (locateFrom number text position).IsOf number text (min position (byteLength text)) 0
      (byteLength text) := by
  have noNewline : newlineByte ∉ bytes text := mt newline_mem_bytes_iff.mp clean
  unfold locateFrom
  rw [lines_of_not_mem clean, placeIn, ← length_bytes]
  refine ⟨lineAround_of_not_mem noNewline (Nat.min_le_right _ _), ?_, ?_, rfl⟩
  · rw [List.count_eq_zero.mpr fun member => noNewline (List.mem_of_mem_take member)]
    rfl
  · rw [List.take_length, List.drop_zero]

/-- An offset in the first line, its newline included. -/
theorem locateFrom_within (clean : '\n' ∉ line) (within : offset < byteLength (line ++ ['\n']))
    (number : Nat) (rest : List Char) :
    (locateFrom number (line ++ '\n' :: rest) offset).IsOf number (line ++ '\n' :: rest) offset 0
      (byteLength (line ++ ['\n'])) := by
  have noNewline : newlineByte ∉ bytes line := mt newline_mem_bytes_iff.mp clean
  have size : byteLength (line ++ ['\n']) = (bytes line).length + 1 := by
    rw [byteLength_append, length_bytes]
    rfl
  have inLine : offset ≤ (bytes line).length := by omega
  unfold locateFrom
  rw [lines_newline clean, placeIn, if_pos within, size]
  refine ⟨?_, ?_, ?_, rfl⟩
  · rw [bytes_newline]
    exact lineAround_first noNewline inLine _
  · rw [bytes_newline, List.take_append_of_le_length inLine,
      List.count_eq_zero.mpr fun member => noNewline (List.mem_of_mem_take member)]
    rfl
  · rw [bytes_newline, bytes_newline, List.take_length_add_append, List.drop_zero]
    rfl

/-- Behind the first line the number is one more, and offsets count from there. -/
theorem Place.IsOf.behind (placed : place.IsOf (number + 1) rest offset start stop)
    (clean : '\n' ∉ line) :
    place.IsOf number (line ++ '\n' :: rest) (byteLength (line ++ ['\n']) + offset)
      (byteLength (line ++ ['\n']) + start) (byteLength (line ++ ['\n']) + stop) := by
  have noNewline : newlineByte ∉ bytes line := mt newline_mem_bytes_iff.mp clean
  have split : bytes (line ++ '\n' :: rest) = bytes (line ++ ['\n']) ++ bytes rest := by
    rw [bytes_newline, bytes_newline, List.append_assoc]
    rfl
  have ended : (bytes (line ++ ['\n'])).getLast? = some newlineByte := by
    rw [bytes_newline]
    exact List.getLast?_concat
  have newlines : (bytes (line ++ ['\n'])).count newlineByte = 1 := by
    rw [bytes_newline, List.count_append, List.count_eq_zero.mpr noNewline]
    rfl
  rw [← length_bytes]
  refine ⟨?_, ?_, ?_, ?_⟩
  · rw [split]
    exact placed.around.behind ended
  · rw [split, List.take_length_add_append, List.count_append, newlines, placed.line, Nat.add_assoc]
  · rw [split, List.take_length_add_append, List.drop_length_add_append]
    exact placed.text
  · rw [Nat.add_sub_add_left]
    exact placed.offset

/-- Every position has the place of the offset that it stands for. -/
theorem exists_isOf (text : List Char) (number position : Nat) :
    ∃ start stop, (locateFrom number text position).IsOf number text
      (min position (byteLength text)) start stop := by
  obtain ⟨earlier, tail, rfl, wholeLines, clean⟩ := exists_wholeLines text
  induction wholeLines generalizing number position with
  | nothing => exact ⟨0, _, locateFrom_of_not_mem clean number position⟩
  | @line line others inside _ ih =>
    rw [List.append_assoc, List.cons_append]
    by_cases within : position < byteLength (line ++ ['\n'])
    · have placed := locateFrom_within inside within number (others ++ tail)
      rw [Nat.min_eq_left]
      · exact ⟨0, _, placed⟩
      · simp only [byteLength_append, byteLength_cons, byteLength_nil] at within ⊢
        omega
    · obtain ⟨further, rfl⟩ := Nat.exists_eq_add_of_le (Nat.le_of_not_lt within)
      obtain ⟨start, stop, placed⟩ := ih (number + 1) further
      have size : byteLength (line ++ '\n' :: (others ++ tail)) =
          byteLength (line ++ ['\n']) + byteLength (others ++ tail) := by
        simp [Nat.add_assoc]
      rw [locateFrom_newline inside, size, Nat.add_min_add_left]
      exact ⟨_, _, placed.behind inside⟩

/-- **The place of a position** is told by the bytes of the text. A position past the end stands for the end.
The number of the line is one more than the newlines before the position, the text is the line around it, up
to its newline or to the end, and the offset counts the bytes from the start of this line. -/
theorem locate_isLineAround (text : List Char) (position : Nat) :
    let offset := min position (bytes text).length
    ∃ start stop, LineAround (bytes text) offset start stop ∧
      (locate text position).line = 1 + ((bytes text).take offset).count newlineByte ∧
      bytes (locate text position).text = ((bytes text).take stop).drop start ∧
      (locate text position).offset = offset - start := by
  obtain ⟨start, stop, placed⟩ := exists_isOf text 1 position
  rw [← length_bytes] at placed
  exact ⟨start, stop, placed.around, placed.line, placed.text, placed.offset⟩

/-- A position inside a character of two bytes, in the second line. -/
example : locate "a\n\u00e9b".toList 3 = ⟨2, ['\u00e9', 'b'], 1⟩ := by decide

end Places

end OpLang.Text
