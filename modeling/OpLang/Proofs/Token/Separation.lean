/-
**Which tokens need separating.**

A list of spelled tokens is written by putting a separator before the first one and behind each: blanks
and comments that end with their line, or nothing. Reading what was written gives the tokens back exactly
if no two of them that fuse stand side by side with nothing between (`Token.tokenize_written_iff`).

Whether two tokens fuse hangs on the first one and on the first character of the second one only
(`FusesWith`). Both directions come from maximal munch:

* `First.exceeds_of_fusesWith`: a token and a character that fuses with it are the start of a word or a
  numeral, and the first piece is no shorter than that.
* `FusesWith.of_spells`: a piece that is longer than a token at its start takes in the character behind
  that, and then the two fuse.

So the first token is read back, or another one is read in its place (`reading_of_apart`,
`reading_of_fusesWith`), and the rest is an induction over the list.
-/

import Mathlib.Data.List.Chain
import OpLang.Proofs.Token.Acceptance

namespace OpLang

/-! ### Characters -/

/-- Punctuation characters are no letters or digits. -/
theorem not_alphanumeric_of_isPunctuation {c : Char} (punctuates : isPunctuation c = true) :
    isLetter c = false ∧ Numeral.isDigit c = false := by
  simp only [isPunctuation, Bool.or_eq_true, Bool.and_eq_true, decide_eq_true_eq, Char.le_def,
    UInt32.le_iff_toNat_le, Char.reduceVal, UInt32.reduceToNat] at punctuates
  simp only [isLetter, Numeral.isDigit, Bool.or_eq_false_iff, Bool.and_eq_false_iff,
    decide_eq_false_iff_not, Char.le_def, UInt32.le_iff_toNat_le, Char.reduceVal,
    UInt32.reduceToNat]
  omega

/-- The kind of the tokens with a spelling. -/
def Token.Kind.ofSpelling : List Char → Token.Kind
  | [] => .eof
  | first :: others =>
    if isLetter first then
      if first :: others = "def".toList then .defKeyword
      else if first :: others = "extern".toList then .externKeyword
      else .identifier
    else if Numeral.isDigit first ∨ first = '.' ∧ others ≠ [] then .number
    else if first = '(' then .openParen
    else if first = ')' then .closeParen
    else if first = ',' then .comma
    else if first = ';' then .semicolon
    else .operator

/-- **No text spells tokens of two kinds.** -/
theorem Token.Kind.Spells.eq_ofSpelling {kind : Token.Kind} {text : List Char}
    (spells : kind.Spells text) : kind = .ofSpelling text := by
  cases spells with
  | identifier isWord notDef notExtern =>
    obtain ⟨letter, _⟩ := isWord
    simp only [ofSpelling, letter, notDef, notExtern, if_true, if_false]
  | number isNumeral =>
    obtain ⟨first, others, rfl⟩ := List.exists_cons_of_ne_nil (Spells.number isNumeral).ne_nil
    rcases isNumeral.begins with digit | ⟨rfl, digit, head, _⟩
    · simp [ofSpelling, isLetter_of_isDigit digit, digit]
    · have nonempty : others ≠ [] := by
        rintro rfl
        cases head
      have noLetter : isLetter '.' = false := by decide
      simp [ofSpelling, noLetter, nonempty]
  | operator punctuates other =>
    obtain ⟨noLetter, noDigit⟩ := not_alphanumeric_of_isPunctuation punctuates
    simp only [List.mem_cons, not_or] at other
    simp [ofSpelling, noLetter, noDigit, other]
  | _ => decide

/-! ### Tokens that fuse -/

/-- **Whether a character right behind a token is taken in by it.** A word takes in letters and digits; a
numeral takes in digits, and a point if it has none; a point takes in a digit. -/
inductive FusesWith : List Char → Char → Prop where
  | word {value : List Char} {c : Char} (isWord : IsWord value) (inside : isWordChar c = true) :
      FusesWith value c
  | whole {value : List Char} {c : Char} (isNumeral : IsNumeral value) (noPoint : '.' ∉ value)
      (more : Numeral.isDigit c = true ∨ c = '.') : FusesWith value c
  | pointed {value : List Char} {c : Char} (isNumeral : IsNumeral value) (point : '.' ∈ value)
      (digit : Numeral.isDigit c = true) : FusesWith value c
  | point {c : Char} (digit : Numeral.isDigit c = true) : FusesWith ['.'] c

/-- Whether two tokens fuse that stand side by side with nothing between. -/
def Fuses (value next : List Char) : Prop := ∃ c ∈ next.head?, FusesWith value c

/-- A numeral without a point is digits. -/
theorem IsNumeral.isDigit_of_no_point {text : List Char} (numeral : IsNumeral text)
    (noPoint : '.' ∉ text) : text ≠ [] ∧ ∀ c ∈ text, Numeral.isDigit c = true := by
  cases numeral with
  | whole nonempty inside => exact ⟨nonempty, inside⟩
  | pointed _ _ _ => exact absurd (List.mem_append_right _ List.mem_cons_self) noPoint
  | fraction _ _ => exact absurd List.mem_cons_self noPoint

/-- Behind a numeral that has a point, more digits make a numeral. -/
theorem IsNumeral.append_digit {text : List Char} {c : Char} (numeral : IsNumeral text)
    (digit : Numeral.isDigit c = true) : IsNumeral (text ++ [c]) := by
  have ofBoth : ∀ digits : List Char, (∀ d ∈ digits, Numeral.isDigit d = true) →
      ∀ d ∈ digits ++ [c], Numeral.isDigit d = true := by
    intro digits inside d member
    rcases List.mem_append.mp member with earlier | last
    · exact inside d earlier
    · rw [List.mem_singleton.mp last]
      exact digit
  have nonempty : ∀ digits : List Char, digits ++ [c] ≠ [] := fun digits =>
    List.append_ne_nil_of_right_ne_nil _ (List.cons_ne_nil _ _)
  cases numeral with
  | whole _ inside => exact .whole (nonempty _) (ofBoth _ inside)
  | pointed given inside behind =>
    rw [List.append_assoc]
    exact .pointed given inside (ofBoth _ behind)
  | fraction _ inside => exact .fraction (nonempty _) (ofBoth _ inside)

/-- **A token and a character that fuses with it** are a word or a numeral. -/
theorem FusesWith.extends {value : List Char} {c : Char} (fuses : FusesWith value c) :
    IsWord (value ++ [c]) ∨ IsNumeral (value ++ [c]) := by
  cases fuses with
  | word isWord inside =>
    left
    obtain ⟨letter, others⟩ := isWord
    refine .letter letter fun d member => ?_
    rcases List.mem_append.mp member with earlier | last
    · exact others d earlier
    · rw [List.mem_singleton.mp last]
      exact inside
  | whole isNumeral noPoint more =>
    right
    rcases more with digit | rfl
    · exact isNumeral.append_digit digit
    · obtain ⟨nonempty, inside⟩ := isNumeral.isDigit_of_no_point noPoint
      exact .pointed nonempty inside nofun
  | pointed isNumeral _ digit => exact .inr (isNumeral.append_digit digit)
  | point digit =>
    refine .inr (.fraction (List.cons_ne_nil _ _) fun d member => ?_)
    rw [List.mem_singleton.mp member]
    exact digit

/-- Behind a point in a numeral there are digits only. -/
theorem IsNumeral.isDigit_behind_point {value others : List Char} {c : Char}
    (numeral : IsNumeral (value ++ c :: others)) (point : '.' ∈ value) :
    Numeral.isDigit c = true := by
  generalize whole : value ++ c :: others = text at numeral
  cases numeral with
  | whole _ inside =>
    subst whole
    exact absurd (inside '.' (List.mem_append_left _ point)) (by decide)
  | pointed _ inside behind =>
    rcases eq_append_cons whole with ⟨more, rfl, _⟩ | ⟨more, _, rfl⟩
    · exact absurd (inside '.' (List.mem_append_left _ point)) (by decide)
    · exact behind c (List.mem_append_right _ List.mem_cons_self)
  | fraction _ inside =>
    obtain ⟨d, value, rfl⟩ := List.exists_cons_of_ne_nil (List.ne_nil_of_mem point)
    obtain ⟨_, rfl⟩ := List.cons.inj whole
    exact inside c (List.mem_append_right _ List.mem_cons_self)

/-- **A token at the start of a longer one** fuses with the character behind it. -/
theorem FusesWith.of_spells {kind longer : Token.Kind} {value others : List Char} {c : Char}
    (spells : kind.Spells value) (whole : longer.Spells (value ++ c :: others)) :
    FusesWith value c := by
  obtain ⟨first, value, rfl⟩ := List.exists_cons_of_ne_nil spells.ne_nil
  rcases whole.classes with isWord | isNumeral | ⟨d, single, _⟩
  · obtain ⟨letter, inside⟩ := isWord
    refine .word (.letter letter fun d member => ?_) ?_
    · exact inside d (List.mem_append_left _ member)
    · exact inside c (List.mem_append_right _ List.mem_cons_self)
  · rcases spells.classes with isWord | isNumeral' | ⟨d, single, punctuates, _⟩
    · obtain ⟨letter, _⟩ := isWord
      rcases isNumeral.isDigit_or_point first List.mem_cons_self with digit | rfl
      · exact absurd letter (by simp [isLetter_of_isDigit digit])
      · exact absurd letter (by decide)
    · by_cases point : '.' ∈ first :: value
      · exact .pointed isNumeral' point (isNumeral.isDigit_behind_point point)
      · exact .whole isNumeral' point (isNumeral.isDigit_or_point c (by simp))
    · obtain ⟨rfl, rfl⟩ := List.cons.inj single
      rcases isNumeral.isDigit_or_point first List.mem_cons_self with digit | rfl
      · exact absurd digit (by simp [(not_alphanumeric_of_isPunctuation punctuates).2])
      · exact .point (isNumeral.isDigit_of_mem c List.mem_cons_self)
  · have length := congrArg List.length single
    simp at length

namespace Lexeme

/-- The first piece takes in a character that fuses with the token before it. -/
theorem First.exceeds_of_fusesWith {value rest : List Char} {c : Char} {lexeme : Lexeme}
    (first : First (value ++ c :: rest) lexeme) (makes : lexeme.kind?.isSome = true)
    (fuses : FusesWith value c) : value.length < lexeme.text.length := by
  by_contra short
  have begins : value ++ [c] <+: value ++ c :: rest := ⟨rest, by simp⟩
  obtain ⟨noWord, noNumeral⟩ := first.longest makes _ begins (by simp; omega)
  rcases fuses.extends with isWord | isNumeral
  · exact noWord isWord
  · exact noNumeral isNumeral

/-- **A token is the first piece** if it does not fuse with what stands behind it. -/
theorem First.text_eq_of_apart {kind : Token.Kind} {value rest : List Char} {lexeme : Lexeme}
    (first : First (value ++ rest) lexeme) (begins : lexeme.text <+: value ++ rest)
    (makes : lexeme.kind?.isSome = true) (spells : kind.Spells value)
    (apart : ∀ c ∈ rest.head?, ¬ FusesWith value c) : lexeme.text = value := by
  obtain ⟨kind', made⟩ := Option.isSome_iff_exists.mp makes
  have spells' := first.spells made
  have enough : value.length ≤ lexeme.text.length := by
    by_contra short
    obtain ⟨noWord, noNumeral⟩ :=
      first.longest makes value (List.prefix_append _ _) (Nat.lt_of_not_le short)
    rcases spells.classes with isWord | isNumeral | ⟨c, rfl, _⟩
    · exact noWord isWord
    · exact noNumeral isNumeral
    · exact short (List.length_pos_iff.mpr spells'.ne_nil)
  obtain ⟨more, same⟩ := List.prefix_of_prefix_length_le (List.prefix_append _ _) begins enough
  cases more with
  | nil => rw [← same, List.append_nil]
  | cons c more =>
    rw [← same] at begins spells'
    obtain ⟨others, rfl⟩ := (List.prefix_append_right_inj value).mp begins
    exact absurd (.of_spells spells spells') (apart c rfl)

/-! ### Reading -/

/-- The kind and the value of the token that a piece makes. -/
def spelled? (lexeme : Lexeme) : Option (Token.Kind × String) :=
  lexeme.kind?.map fun kind => (kind, String.ofList lexeme.text)

/-- The kinds and values of the tokens that a text is read as, and what is left over. -/
def reading (text : List Char) : List (Token.Kind × String) × List Char :=
  ((pieces text).1.filterMap spelled?, (pieces text).2)

theorem reading_of_first {text rest : List Char} {lexeme : Lexeme} (found : first? text = some lexeme)
    (whole : lexeme.text ++ rest = text) :
    reading text = (lexeme.spelled?.toList ++ (reading rest).1, (reading rest).2) := by
  have taken : cut text = some (lexeme, rest) := by
    rw [cut, found, ← whole]
    simp
  unfold reading
  rw [pieces_of_cut_some taken, List.filterMap_cons]
  cases lexeme.spelled? <;> rfl

/-- Tokens have the kinds and values that the pieces are read as. -/
theorem map_tokens (name : String) (offset : Nat) (lexemes : List Lexeme) :
    (tokens name offset lexemes).map (fun token => (token.kind, token.value)) =
      lexemes.filterMap spelled? := by
  induction lexemes generalizing offset with
  | nil => rfl
  | cons lexeme others ih =>
    rw [tokens, List.map_append, ih, List.filterMap_cons]
    unfold token? spelled?
    cases lexeme.kind? <;> rfl

/-- A source has the tokens that its text is read as, and its end, if nothing is left over. -/
theorem tokenize_iff_reading (name : String) (text : List Char)
    (spellings : List (Token.Kind × String)) :
    (∃ tokens, Token.tokenize ⟨String.ofList text, name⟩ = .ok tokens ∧
      tokens.map (fun token => (token.kind, token.value)) = spellings ++ [(.eof, "EOF")]) ↔
      reading text = (spellings, []) := by
  simp only [Token.tokenize, String.toList_ofList, reading]
  cases leftover : (pieces text).2 with
  | nil =>
    simp only [Except.ok.injEq, exists_eq_left', List.map_append, map_tokens, Prod.mk.injEq, and_true]
    exact List.append_left_inj _
  | cons c rest =>
    refine iff_of_false ?_ ?_
    · rintro ⟨_, failed, _⟩
      cases failed
    · intro same
      cases (Prod.mk.inj same).2

/-- Where a text begins with a token, the first piece makes a token. -/
theorem exists_first_of_spells {kind : Token.Kind} {value : List Char} (spells : kind.Spells value)
    (rest : List Char) :
    ∃ lexeme made, first? (value ++ rest) = some lexeme ∧ lexeme.kind? = some made := by
  obtain ⟨c, value, rfl⟩ := List.exists_cons_of_ne_nil spells.ne_nil
  obtain ⟨readable, notBlank, noMark⟩ := spells.readable c List.mem_cons_self
  obtain ⟨lexeme, found⟩ := exists_first readable (value ++ rest)
  cases makes : lexeme.kind? with
  | some made => exact ⟨lexeme, made, found, makes⟩
  | none =>
    rcases (First.of_first? found).of_silent makes with ⟨d, _, same, white, _⟩ | ⟨_, same, _⟩
    · obtain ⟨rfl, _⟩ := List.cons.inj same
      exact absurd white (by simp [notBlank])
    · exact absurd (List.cons.inj same).1 noMark

/-- **A token is read** if it does not fuse with what stands behind it. -/
theorem reading_of_apart {kind : Token.Kind} {value rest : List Char} (spells : kind.Spells value)
    (apart : ∀ c ∈ rest.head?, ¬ FusesWith value c) :
    reading (value ++ rest) = ((kind, String.ofList value) :: (reading rest).1, (reading rest).2) := by
  obtain ⟨lexeme, made, found, makes⟩ := exists_first_of_spells spells rest
  have first := First.of_first? found
  have same : lexeme.text = value :=
    first.text_eq_of_apart (first?_isPrefix found).1 (by rw [makes]; rfl) spells apart
  obtain ⟨⟨behind, whole⟩, _⟩ := first?_isPrefix found
  obtain rfl : behind = rest := by
    rw [same] at whole
    exact List.append_cancel_left whole
  have spells' := first.spells makes
  rw [same] at spells'
  have spelled : lexeme.spelled? = some (kind, String.ofList value) := by
    rw [spelled?, makes, same, spells.eq_ofSpelling, spells'.eq_ofSpelling]
    rfl
  rw [reading_of_first found whole, spelled]
  rfl

/-- A second point begins a token of its own. -/
example : reading "1.5.".toList = ([(.number, "1.5"), (.operator, ".")], []) := by cbv

/-- **Another token is read in its place** if it fuses with what stands behind it. -/
theorem reading_of_fusesWith {kind : Token.Kind} {value rest : List Char} {c : Char}
    (spells : kind.Spells value) (fuses : FusesWith value c) :
    ∃ other others, (reading (value ++ c :: rest)).1 = other :: others ∧
      other.2 ≠ String.ofList value := by
  obtain ⟨lexeme, made, found, makes⟩ := exists_first_of_spells spells (c :: rest)
  have first := First.of_first? found
  have exceeds := first.exceeds_of_fusesWith (by rw [makes]; rfl) fuses
  obtain ⟨⟨behind, whole⟩, _⟩ := first?_isPrefix found
  have spelled : lexeme.spelled? = some (made, String.ofList lexeme.text) := by
    rw [spelled?, makes]
    rfl
  rw [reading_of_first found whole, spelled]
  refine ⟨_, _, rfl, fun same => ?_⟩
  rw [String.ofList_injective same] at exceeds
  exact Nat.lt_irrefl _ exceeds

/-! ### Separators -/

/-- **Whether a text may stand between tokens:** blanks, and comments that end with their line. -/
inductive IsSeparator : List Char → Prop where
  | nothing : IsSeparator []
  | blank {c : Char} {gap : List Char} (white : Text.isBlank c = true) (others : IsSeparator gap) :
      IsSeparator (c :: gap)
  | comment {body gap : List Char} (sameLine : '\n' ∉ body) (others : IsSeparator gap) :
      IsSeparator ('#' :: body ++ '\n' :: gap)

/-- Where a text begins with a blank, its first piece is the run of blanks there. -/
theorem first?_of_isBlank {c : Char} (white : Text.isBlank c = true) (rest : List Char) :
    first? (c :: rest) = some ⟨.blank, c :: rest.takeWhile Text.isBlank⟩ := by
  obtain ⟨noLetter, noDigit, _⟩ := not_graphic_of_isBlank white
  have noPoint : c ≠ '.' := by
    rintro rfl
    exact absurd white (by decide)
  simp [first?, noLetter, noDigit, noPoint, white]

theorem reading_dropWhile_isBlank (text : List Char) :
    reading (text.dropWhile Text.isBlank) = reading text := by
  cases text with
  | nil => rfl
  | cons c rest =>
    by_cases white : Text.isBlank c = true
    · rw [reading_of_first (first?_of_isBlank white rest)
        (congrArg (c :: ·) List.takeWhile_append_dropWhile), List.dropWhile_cons_of_pos white]
      rfl
    · rw [List.dropWhile_cons_of_neg white]

/-- A blank in front changes nothing. -/
theorem reading_blank {c : Char} (white : Text.isBlank c = true) (text : List Char) :
    reading (c :: text) = reading text := by
  rw [← reading_dropWhile_isBlank (c :: text), List.dropWhile_cons_of_pos white,
    reading_dropWhile_isBlank]

/-- A line of comment in front changes nothing. -/
theorem reading_comment {body : List Char} (sameLine : '\n' ∉ body) (text : List Char) :
    reading ('#' :: body ++ '\n' :: text) = reading text := by
  have run : (body ++ '\n' :: text).takeWhile (· ≠ '\n') = body := by
    rw [List.takeWhile_append_of_pos fun c member => ?_, List.takeWhile_cons_of_neg (by simp),
      List.append_nil]
    rw [decide_eq_true_eq]
    rintro rfl
    exact sameLine member
  have found : first? ('#' :: (body ++ '\n' :: text)) = some ⟨.comment, '#' :: body⟩ := by
    have noLetter : isLetter '#' = false := by decide
    have noDigit : Numeral.isDigit '#' = false := by decide
    have notBlank : Text.isBlank '#' = false := by decide
    simp only [first?, noLetter, noDigit, notBlank, run, Bool.false_eq_true, if_false, if_true]
    rw [if_neg (by simp)]
  rw [List.cons_append, reading_of_first found rfl]
  exact reading_blank (by decide) text

/-- **A separator in front changes nothing.** -/
theorem reading_separator {gap : List Char} (separates : IsSeparator gap) (text : List Char) :
    reading (gap ++ text) = reading text := by
  induction separates with
  | nothing => rfl
  | blank white _ ih => rw [List.cons_append, reading_blank white, ih]
  | @comment body gap sameLine _ ih =>
    rw [List.append_assoc]
    show reading ('#' :: body ++ '\n' :: (gap ++ text)) = reading text
    rw [reading_comment sameLine, ih]

/-- No token fuses with a separator. -/
theorem not_fusesWith_separator {gap : List Char} (separates : IsSeparator gap) (value : List Char) :
    ∀ c ∈ gap.head?, ¬ FusesWith value c := by
  have ofPlain : ∀ c, isWordChar c = false → c ≠ '.' → ¬ FusesWith value c := by
    intro c noWordChar noPoint fuses
    obtain ⟨_, noDigit⟩ := Bool.or_eq_false_iff.mp noWordChar
    cases fuses with
    | word _ inside => exact absurd inside (by simp [noWordChar])
    | whole _ _ more => exact more.elim (by simp [noDigit]) noPoint
    | pointed _ _ digit => exact absurd digit (by simp [noDigit])
    | point digit => exact absurd digit (by simp [noDigit])
  intro c head
  cases separates with
  | nothing => cases head
  | blank white _ =>
    obtain rfl := Option.some.inj head
    obtain ⟨noLetter, noDigit, _⟩ := not_graphic_of_isBlank white
    refine ofPlain _ (by simp [isWordChar, noLetter, noDigit]) ?_
    rintro rfl
    exact absurd white (by decide)
  | comment _ _ =>
    obtain rfl := Option.some.inj head
    exact ofPlain '#' (by decide) (by decide)

end Lexeme

/-! ### Writing -/

/-- A token's kind and value. -/
structure Spelling where
  kind : Token.Kind
  value : String
  spells : kind.Spells value.toList

/-- A text that may stand between tokens. -/
structure Separator where
  text : List Char
  separates : Lexeme.IsSeparator text

/-- Spelled tokens, each with the separator behind it. -/
def written : List (Spelling × Separator) → List Char
  | [] => []
  | (spelling, behind) :: others => spelling.value.toList ++ (behind.text ++ written others)

/-- A token takes in what is written behind it exactly if nothing separates it from a token that it
fuses with. -/
theorem fusesWith_head_iff (value : List Char) (behind : Separator)
    (others : List (Spelling × Separator)) :
    (∃ c ∈ (behind.text ++ written others).head?, FusesWith value c) ↔
      behind.text = [] ∧ ∃ next ∈ others.head?, Fuses value next.1.value.toList := by
  have ofSeparator := Lexeme.not_fusesWith_separator behind.separates value
  cases separator : behind.text with
  | cons d gap =>
    rw [separator] at ofSeparator
    constructor
    · rintro ⟨c, head, fuses⟩
      exact absurd fuses (ofSeparator c head)
    · rintro ⟨empty, _⟩
      cases empty
  | nil =>
    cases others with
    | nil => simp [written]
    | cons next others =>
      obtain ⟨next, gap⟩ := next
      obtain ⟨c, rest, same⟩ := List.exists_cons_of_ne_nil next.spells.ne_nil
      simp [written, Fuses, same]

/-- What is written is read back exactly if no two tokens fuse that nothing separates. -/
theorem reading_written_iff (spelled : List (Spelling × Separator)) :
    Lexeme.reading (written spelled) =
        (spelled.map fun (spelling, _) => (spelling.kind, spelling.value), []) ↔
      spelled.IsChain fun (spelling, behind) (next, _) =>
        behind.text = [] → ¬ Fuses spelling.value.toList next.value.toList := by
  induction spelled with
  | nil =>
    refine iff_of_true ?_ .nil
    rw [written, Lexeme.reading, Lexeme.pieces_of_cut_none rfl]
    rfl
  | cons pair others ih =>
    obtain ⟨spelling, behind⟩ := pair
    have fused := fusesWith_head_iff spelling.value.toList behind others
    rw [List.isChain_cons, ← ih]
    by_cases fuses : ∃ c ∈ (behind.text ++ written others).head?, FusesWith spelling.value.toList c
    · obtain ⟨empty, next, first, fusesNext⟩ := fused.mp fuses
      refine iff_of_false (fun readBack => ?_) fun apart => apart.1 next first empty fusesNext
      obtain ⟨c, head, fuses⟩ := fuses
      obtain ⟨rest, whole⟩ := List.head?_eq_some_iff.mp head
      rw [written, whole] at readBack
      obtain ⟨other, more, read, differs⟩ := Lexeme.reading_of_fusesWith spelling.spells fuses
      rw [readBack] at read
      obtain ⟨rfl, _⟩ := List.cons.inj read
      exact differs String.ofList_toList.symm
    · have apart : ∀ c ∈ (behind.text ++ written others).head?,
          ¬ FusesWith spelling.value.toList c := fun c head fusesHere => fuses ⟨c, head, fusesHere⟩
      have chained : ∀ next ∈ others.head?,
          behind.text = [] → ¬ Fuses spelling.value.toList next.1.value.toList :=
        fun next first empty fusesNext => fuses (fused.mpr ⟨empty, next, first, fusesNext⟩)
      rw [written, Lexeme.reading_of_apart spelling.spells apart,
        Lexeme.reading_separator behind.separates, String.ofList_toList]
      constructor
      · intro readBack
        obtain ⟨all, nothing⟩ := Prod.mk.inj readBack
        exact ⟨chained, Prod.ext (List.cons.inj all).2 nothing⟩
      · rintro ⟨_, readBack⟩
        rw [readBack]
        rfl

/-- **Reading undoes writing.** Spelled tokens that are written with separators before the first one and
behind each are read back, with the end behind them, exactly if no two of them fuse that nothing
separates. -/
theorem Token.tokenize_written_iff (name : String) (front : Separator)
    (spelled : List (Spelling × Separator)) :
    (∃ tokens, tokenize ⟨String.ofList (front.text ++ written spelled), name⟩ = .ok tokens ∧
      tokens.map (fun token => (token.kind, token.value)) =
        spelled.map (fun (spelling, _) => (spelling.kind, spelling.value)) ++ [(.eof, "EOF")]) ↔
      spelled.IsChain fun (spelling, behind) (next, _) =>
        behind.text = [] → ¬ Fuses spelling.value.toList next.value.toList := by
  rw [Lexeme.tokenize_iff_reading, Lexeme.reading_separator front.separates]
  exact reading_written_iff spelled

end OpLang
