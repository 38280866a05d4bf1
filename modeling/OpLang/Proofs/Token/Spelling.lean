/-
**How tokens are spelled.**

The texts that a token may have are told by its kind (`Token.Kind.Spells`): a word, a numeral, one of
four punctuation characters, or any other one. Words and numerals are the classes whose members may be
longer than one character, and a piece of either class could have been cut too short.

* `First` lists what the first piece of a text can be, with what its first character is not; it is
  read off the recogniser once (`First.of_first?`), which nothing below opens again.
* `First.spells`: a piece that makes a token is spelled as tokens of that kind are.
* `First.longest`: no word and no numeral at the start of the text is longer than the first piece, if
  that makes a token.
-/

import Mathlib.Data.List.TakeWhile
import OpLang.Token.Lexer

namespace OpLang

/-! ### Words and numerals -/

/-- A letter, and letters and digits behind it. -/
inductive IsWord : List Char → Prop where
  | letter {first : Char} {others : List Char} (letter : isLetter first = true)
      (inside : ∀ c ∈ others, isWordChar c = true) : IsWord (first :: others)

/-- Digits; or digits, a point and possibly digits behind it; or a point and digits. -/
inductive IsNumeral : List Char → Prop where
  | whole {digits : List Char} (nonempty : digits ≠ [])
      (inside : ∀ c ∈ digits, Numeral.isDigit c = true) : IsNumeral digits
  | pointed {digits fraction : List Char} (nonempty : digits ≠ [])
      (inside : ∀ c ∈ digits, Numeral.isDigit c = true)
      (behind : ∀ c ∈ fraction, Numeral.isDigit c = true) : IsNumeral (digits ++ '.' :: fraction)
  | fraction {digits : List Char} (nonempty : digits ≠ [])
      (inside : ∀ c ∈ digits, Numeral.isDigit c = true) : IsNumeral ('.' :: digits)

theorem isLetter_of_isDigit {c : Char} (digit : Numeral.isDigit c = true) : isLetter c = false := by
  simp only [Numeral.isDigit, Bool.and_eq_true, decide_eq_true_eq, Char.le_def,
    UInt32.le_iff_toNat_le] at digit
  simp only [isLetter, Bool.or_eq_false_iff, Bool.and_eq_false_iff, decide_eq_false_iff_not,
    Char.le_def, UInt32.le_iff_toNat_le]
  have nine : '9'.val.toNat < 'A'.val.toNat ∧ '9'.val.toNat < 'a'.val.toNat := by decide
  omega

/-- A numeral begins with a digit, or with a point and a digit. -/
theorem IsNumeral.begins {c : Char} {others : List Char} (numeral : IsNumeral (c :: others)) :
    Numeral.isDigit c = true ∨
      c = '.' ∧ ∃ digit, others.head? = some digit ∧ Numeral.isDigit digit = true := by
  generalize whole : c :: others = text at numeral
  cases numeral with
  | whole _ inside =>
    subst whole
    exact .inl (inside c List.mem_cons_self)
  | @pointed digits fraction nonempty inside _ =>
    cases digits with
    | nil => exact absurd rfl nonempty
    | cons digit digits =>
      obtain ⟨rfl, _⟩ := List.cons.inj whole
      exact .inl (inside c List.mem_cons_self)
  | @fraction digits nonempty inside =>
    obtain ⟨rfl, rfl⟩ := List.cons.inj whole
    cases others with
    | nil => exact absurd rfl nonempty
    | cons digit digits => exact .inr ⟨rfl, digit, rfl, inside digit List.mem_cons_self⟩

/-- Behind a point at its start a numeral has digits only. -/
theorem IsNumeral.isDigit_of_mem {others : List Char} (numeral : IsNumeral ('.' :: others)) :
    ∀ c ∈ others, Numeral.isDigit c = true := by
  generalize whole : '.' :: others = text at numeral
  cases numeral with
  | whole _ inside =>
    subst whole
    exact absurd (inside '.' List.mem_cons_self) (by decide)
  | @pointed digits _ nonempty inside _ =>
    cases digits with
    | nil => exact absurd rfl nonempty
    | cons first digits =>
      obtain ⟨rfl, _⟩ := List.cons.inj whole
      exact absurd (inside '.' List.mem_cons_self) (by decide)
  | fraction _ inside =>
    obtain ⟨_, rfl⟩ := List.cons.inj whole
    exact inside

/-! ### The first piece -/

namespace Lexeme

/-- What the first piece of a text can be. -/
inductive First : List Char → Lexeme → Prop where
  | word {c : Char} {rest : List Char} (letter : isLetter c = true) :
      First (c :: rest) ⟨.word, c :: rest.takeWhile isWordChar⟩
  | numeral {c : Char} {rest : List Char} (digit : Numeral.isDigit c = true) :
      First (c :: rest) ⟨.numeral,
        c :: rest.takeWhile Numeral.isDigit ++ pointPart (rest.dropWhile Numeral.isDigit)⟩
  | fraction {digit : Char} {rest : List Char} (isDigit : Numeral.isDigit digit = true) :
      First ('.' :: digit :: rest) ⟨.numeral, '.' :: digit :: rest.takeWhile Numeral.isDigit⟩
  | blank {c : Char} {rest : List Char} (white : Text.isBlank c = true) :
      First (c :: rest) ⟨.blank, c :: rest.takeWhile Text.isBlank⟩
  | comment {rest : List Char} : First ('#' :: rest) ⟨.comment, '#' :: rest.takeWhile (· ≠ '\n')⟩
  | punctuation {c : Char} {rest : List Char} (punctuates : isPunctuation c = true)
      (noComment : c ≠ '#') (noLetter : isLetter c = false) (noDigit : Numeral.isDigit c = false)
      (noFraction : c = '.' → ∀ digit ∈ rest.head?, Numeral.isDigit digit = false) :
      First (c :: rest) ⟨punctuationShape c, [c]⟩

theorem First.of_first? {text : List Char} {lexeme : Lexeme} (found : first? text = some lexeme) :
    First text lexeme := by
  cases text with
  | nil => simp [first?] at found
  | cons c rest =>
    simp only [first?] at found
    split at found
    · rename_i letter
      obtain rfl := Option.some.inj found
      exact .word letter
    rename_i noLetter
    split at found
    · rename_i digit
      obtain rfl := Option.some.inj found
      exact .numeral digit
    rename_i noDigit
    split at found
    · rename_i begins
      obtain ⟨rfl, begins⟩ := begins
      obtain rfl := Option.some.inj found
      cases rest with
      | nil => simp at begins
      | cons digit rest =>
        have isDigit : Numeral.isDigit digit = true := by simpa using begins
        rw [List.takeWhile_cons_of_pos isDigit]
        exact .fraction isDigit
    rename_i noFraction
    split at found
    · rename_i white
      obtain rfl := Option.some.inj found
      exact .blank white
    split at found
    · rename_i mark
      obtain rfl := Option.some.inj found
      subst mark
      exact .comment
    rename_i noComment
    split at found
    · rename_i punctuates
      obtain rfl := Option.some.inj found
      refine .punctuation punctuates noComment (by simpa using noLetter) (by simpa using noDigit) ?_
      rintro rfl digit head
      cases rest with
      | nil => simp at head
      | cons other rest =>
        obtain rfl : other = digit := by simpa using head
        simpa using noFraction
    · simp at found

end Lexeme

/-! ### Spellings -/

/-- **The texts that the tokens of a kind have.** The end of a text is not spelled. -/
inductive Token.Kind.Spells : Token.Kind → List Char → Prop where
  | identifier {word : List Char} (isWord : IsWord word) (notDef : word ≠ "def".toList)
      (notExtern : word ≠ "extern".toList) : Spells .identifier word
  | defKeyword : Spells .defKeyword "def".toList
  | externKeyword : Spells .externKeyword "extern".toList
  | number {numeral : List Char} (isNumeral : IsNumeral numeral) : Spells .number numeral
  | openParen : Spells .openParen ['(']
  | closeParen : Spells .closeParen [')']
  | comma : Spells .comma [',']
  | semicolon : Spells .semicolon [';']
  | operator {c : Char} (punctuates : isPunctuation c = true)
      (other : c ∉ ['(', ')', ',', ';', '#']) : Spells .operator [c]

theorem Token.Kind.Spells.ne_eof {kind : Token.Kind} {text : List Char} (spells : kind.Spells text) :
    kind ≠ .eof := by
  rintro rfl
  cases spells

theorem Token.Kind.Spells.ne_nil {kind : Token.Kind} {text : List Char} (spells : kind.Spells text) :
    text ≠ [] := by
  cases spells with
  | identifier isWord _ _ => cases isWord; exact List.cons_ne_nil _ _
  | number isNumeral =>
    cases isNumeral with
    | whole nonempty _ => exact nonempty
    | pointed _ _ _ => exact List.append_ne_nil_of_right_ne_nil _ (List.cons_ne_nil _ _)
    | fraction _ _ => exact List.cons_ne_nil _ _
  | _ => exact List.cons_ne_nil _ _

theorem Token.Kind.Spells.byteLength_pos {kind : Token.Kind} {text : List Char}
    (spells : kind.Spells text) : 0 < Text.byteLength text :=
  Nat.pos_of_ne_zero fun empty => spells.ne_nil (Text.byteLength_eq_zero.mp empty)

namespace Lexeme

/-- The digits of a numeral and its point part are a numeral. -/
theorem isNumeral_pointPart {c : Char} (rest : List Char) (digit : Numeral.isDigit c = true) :
    IsNumeral (c :: rest.takeWhile Numeral.isDigit ++
      pointPart (rest.dropWhile Numeral.isDigit)) := by
  have inside : ∀ d ∈ c :: rest.takeWhile Numeral.isDigit, Numeral.isDigit d = true := by
    intro d member
    rcases List.mem_cons.mp member with rfl | further
    · exact digit
    · exact List.mem_takeWhile_imp further
  unfold pointPart
  split
  · exact .pointed (List.cons_ne_nil _ _) inside fun d member => List.mem_takeWhile_imp member
  · rw [List.append_nil]
    exact .whole (List.cons_ne_nil _ _) inside

/-- **A piece that makes a token is spelled as the tokens of its kind are.** -/
theorem First.spells {text : List Char} {lexeme : Lexeme} {kind : Token.Kind}
    (first : First text lexeme) (makes : lexeme.kind? = some kind) : kind.Spells lexeme.text := by
  cases first with
  | @word c rest letter =>
    obtain rfl := Option.some.inj makes
    have isWord : IsWord (c :: rest.takeWhile isWordChar) :=
      .letter letter fun d member => List.mem_takeWhile_imp member
    dsimp only
    split
    · rename_i isDef
      rw [isDef]
      exact .defKeyword
    split
    · rename_i isExtern
      rw [isExtern]
      exact .externKeyword
    · exact .identifier isWord ‹_› ‹_›
  | @numeral c rest digit =>
    obtain rfl := Option.some.inj makes
    exact .number (isNumeral_pointPart rest digit)
  | @fraction digit rest isDigit =>
    obtain rfl := Option.some.inj makes
    refine .number (.fraction (List.cons_ne_nil _ _) fun d member => ?_)
    rcases List.mem_cons.mp member with rfl | further
    · exact isDigit
    · exact List.mem_takeWhile_imp further
  | blank _ => cases makes
  | comment => cases makes
  | @punctuation c rest punctuates noComment _ _ _ =>
    simp only [kind?, punctuationShape] at makes
    by_cases isOpen : c = '('
    · subst isOpen
      obtain rfl := Option.some.inj makes
      exact .openParen
    by_cases isClose : c = ')'
    · subst isClose
      obtain rfl := Option.some.inj makes
      exact .closeParen
    by_cases isComma : c = ','
    · subst isComma
      obtain rfl := Option.some.inj makes
      exact .comma
    by_cases isSemicolon : c = ';'
    · subst isSemicolon
      obtain rfl := Option.some.inj makes
      exact .semicolon
    · simp only [isOpen, isClose, isComma, isSemicolon, if_false] at makes
      obtain rfl := Option.some.inj makes
      exact .operator punctuates (by simp [*])

/-! ### Maximal munch -/

/-- Characters with a property that stand at the start of a text are among those that are taken while
the property holds. -/
theorem length_le_takeWhile {property : Char → Bool} {start text : List Char}
    (begins : start <+: text) (all : ∀ c ∈ start, property c = true) :
    start.length ≤ (text.takeWhile property).length := by
  obtain ⟨more, rfl⟩ := begins
  rw [List.takeWhile_append_of_pos all, List.length_append]
  omega

/-- No word at the start of a text is longer than the first piece, if that makes a token. -/
theorem First.length_le_of_isWord {text word : List Char} {lexeme : Lexeme}
    (first : First text lexeme) (makes : lexeme.kind?.isSome = true) (begins : word <+: text)
    (isWord : IsWord word) : word.length ≤ lexeme.text.length := by
  obtain ⟨letter, inside⟩ := isWord
  cases first with
  | word _ =>
    obtain ⟨rfl, behind⟩ := List.cons_prefix_cons.mp begins
    exact Nat.succ_le_succ (length_le_takeWhile behind inside)
  | numeral digit =>
    obtain ⟨rfl, _⟩ := List.cons_prefix_cons.mp begins
    exact absurd letter (by simp [isLetter_of_isDigit digit])
  | fraction _ =>
    obtain ⟨rfl, _⟩ := List.cons_prefix_cons.mp begins
    exact absurd letter (by decide)
  | blank _ => cases makes
  | comment => cases makes
  | punctuation _ _ noLetter _ _ =>
    obtain ⟨rfl, _⟩ := List.cons_prefix_cons.mp begins
    exact absurd letter (by simp [noLetter])

/-- A numeral at the start of a text that begins with a digit is within the digits there and the point
part behind them. -/
theorem length_le_of_isNumeral {c : Char} {rest numeral : List Char}
    (digit : Numeral.isDigit c = true) (begins : numeral <+: c :: rest)
    (isNumeral : IsNumeral numeral) :
    numeral.length ≤ (c :: rest.takeWhile Numeral.isDigit ++
      pointPart (rest.dropWhile Numeral.isDigit)).length := by
  cases isNumeral with
  | whole _ inside =>
    have within := length_le_takeWhile begins inside
    rw [List.takeWhile_cons_of_pos digit] at within
    rw [List.length_append]
    omega
  | @pointed digits fraction nonempty inside behind =>
    obtain ⟨more, whole⟩ := begins
    cases digits with
    | nil => exact absurd rfl nonempty
    | cons first digits =>
      obtain ⟨rfl, _⟩ := List.cons.inj whole
      obtain rfl : rest = digits ++ '.' :: (fraction ++ more) := by simpa using whole.symm
      have others : ∀ d ∈ digits, Numeral.isDigit d = true := fun d member =>
        inside d (List.mem_cons_of_mem _ member)
      have noDigit : ¬ Numeral.isDigit '.' = true := by decide
      rw [List.takeWhile_append_of_pos others, List.dropWhile_append_of_pos others,
        List.takeWhile_cons_of_neg noDigit, List.dropWhile_cons_of_neg noDigit, pointPart,
        List.takeWhile_append_of_pos behind]
      simp only [List.append_nil, List.cons_append, List.length_cons, List.length_append]
      omega
  | fraction _ _ =>
    obtain ⟨rfl, _⟩ := List.cons_prefix_cons.mp begins
    exact absurd digit (by decide)

/-- No numeral at the start of a text is longer than the first piece, if that makes a token. -/
theorem First.length_le_of_isNumeral {text numeral : List Char} {lexeme : Lexeme}
    (first : First text lexeme) (makes : lexeme.kind?.isSome = true) (begins : numeral <+: text)
    (isNumeral : IsNumeral numeral) : numeral.length ≤ lexeme.text.length := by
  cases numeral with
  | nil => exact Nat.zero_le _
  | cons c others =>
    cases first with
    | word letter =>
      obtain ⟨rfl, _⟩ := List.cons_prefix_cons.mp begins
      rcases isNumeral.begins with digit | ⟨rfl, _⟩
      · exact absurd letter (by simp [isLetter_of_isDigit digit])
      · exact absurd letter (by decide)
    | numeral digit => exact Lexeme.length_le_of_isNumeral digit begins isNumeral
    | @fraction digit rest isDigit =>
      obtain ⟨rfl, behind⟩ := List.cons_prefix_cons.mp begins
      have within := length_le_takeWhile behind isNumeral.isDigit_of_mem
      rw [List.takeWhile_cons_of_pos isDigit] at within
      exact Nat.succ_le_succ within
    | blank _ => cases makes
    | comment => cases makes
    | punctuation _ _ _ noDigit noFraction =>
      obtain ⟨rfl, behind⟩ := List.cons_prefix_cons.mp begins
      rcases isNumeral.begins with digit | ⟨isPoint, digit, head, isDigit⟩
      · exact absurd digit (by simp [noDigit])
      · obtain ⟨more, rfl⟩ := behind
        have shown := noFraction isPoint digit (by simp [List.head?_append, head])
        exact absurd isDigit (by simp [shown])

end Lexeme

/-- Whether neither a word nor a numeral at the start of a text is longer than `value`. -/
def IsLongest (value text : List Char) : Prop :=
  ∀ longer, longer <+: text → value.length < longer.length → ¬ IsWord longer ∧ ¬ IsNumeral longer

/-- **Maximal munch:** what is cut off a text for a token is as long as it can be. -/
theorem Lexeme.First.longest {text : List Char} {lexeme : Lexeme} (first : First text lexeme)
    (makes : lexeme.kind?.isSome = true) : IsLongest lexeme.text text := by
  intro longer begins exceeds
  refine ⟨fun isWord => ?_, fun isNumeral => ?_⟩
  · exact absurd (first.length_le_of_isWord makes begins isWord) (Nat.not_le_of_lt exceeds)
  · exact absurd (first.length_le_of_isNumeral makes begins isNumeral) (Nat.not_le_of_lt exceeds)

end OpLang
