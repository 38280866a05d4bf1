/-
**Which texts have tokens.**

A character is readable if it is blank or an ASCII letter, digit or punctuation character, and it is
commented if a `#` stands at it or before it with no newline between. A source has tokens exactly if all
its characters are readable or commented, and otherwise the first one that is neither is reported.

The pieces of a text are cut off it one after the other (`Cuts`), so what is said of the first piece holds
along the text by induction:

* `First.covers`: a piece consists of readable characters, or it is a comment, which ends before a
  newline or at the end of the text.
* `Cuts.isReadableText`: so all that is cut off is readable or commented.
* `Cuts.not_commented`: a character at which no piece begins is not commented, since the comment would
  have taken it in.
-/

import OpLang.Proofs.Text.Line
import OpLang.Proofs.Token.Spelling
import OpLang.Token.Cursor

namespace OpLang

/-! ### Characters -/

/-- The characters that pieces other than comments consist of. -/
def isReadable (c : Char) : Bool :=
  Text.isBlank c || isLetter c || Numeral.isDigit c || isPunctuation c

theorem isReadable_of_isBlank {c : Char} (white : Text.isBlank c = true) : isReadable c = true := by
  simp [isReadable, white]

theorem isReadable_of_isLetter {c : Char} (letter : isLetter c = true) : isReadable c = true := by
  simp [isReadable, letter]

theorem isReadable_of_isDigit {c : Char} (digit : Numeral.isDigit c = true) :
    isReadable c = true := by
  simp [isReadable, digit]

theorem isReadable_of_isPunctuation {c : Char} (punctuates : isPunctuation c = true) :
    isReadable c = true := by
  simp [isReadable, punctuates]

theorem isReadable_of_isWordChar {c : Char} (inside : isWordChar c = true) :
    isReadable c = true := by
  rcases Bool.or_eq_true_iff.mp inside with letter | digit
  · exact isReadable_of_isLetter letter
  · exact isReadable_of_isDigit digit

/-- Blanks are no letters, digits or punctuation characters. -/
theorem not_graphic_of_isBlank {c : Char} (white : Text.isBlank c = true) :
    isLetter c = false ∧ Numeral.isDigit c = false ∧ isPunctuation c = false := by
  simp only [Text.isBlank, Bool.or_eq_true, Bool.and_eq_true, beq_iff_eq, decide_eq_true_eq,
    Char.le_def, UInt32.le_iff_toNat_le, Char.ext_iff, ← UInt32.toNat_inj, Char.reduceVal,
    UInt32.reduceToNat] at white
  simp only [isLetter, Numeral.isDigit, isPunctuation, Bool.or_eq_false_iff, Bool.and_eq_false_iff,
    decide_eq_false_iff_not, Char.le_def, UInt32.le_iff_toNat_le, Char.reduceVal,
    UInt32.reduceToNat]
  omega

/-- A numeral consists of digits and points. -/
theorem IsNumeral.isDigit_or_point {text : List Char} (numeral : IsNumeral text) :
    ∀ c ∈ text, Numeral.isDigit c = true ∨ c = '.' := by
  intro c member
  cases numeral with
  | whole _ inside => exact .inl (inside c member)
  | pointed _ inside behind =>
    rcases List.mem_append.mp member with whole | further
    · exact .inl (inside c whole)
    · rcases List.mem_cons.mp further with rfl | fraction
      · exact .inr rfl
      · exact .inl (behind c fraction)
  | fraction _ inside =>
    rcases List.mem_cons.mp member with rfl | fraction
    · exact .inr rfl
    · exact .inl (inside c fraction)

theorem isWord_defKeyword : IsWord "def".toList :=
  .letter rfl (List.all_eq_true.mp rfl)

theorem isWord_externKeyword : IsWord "extern".toList :=
  .letter rfl (List.all_eq_true.mp rfl)

/-- **A token is a word, a numeral or one punctuation character,** and that is no mark of a comment. -/
theorem Token.Kind.Spells.classes {kind : Token.Kind} {text : List Char} (spells : kind.Spells text) :
    IsWord text ∨ IsNumeral text ∨ ∃ c, text = [c] ∧ isPunctuation c = true ∧ c ≠ '#' := by
  cases spells with
  | identifier isWord _ _ => exact .inl isWord
  | defKeyword => exact .inl isWord_defKeyword
  | externKeyword => exact .inl isWord_externKeyword
  | number isNumeral => exact .inr (.inl isNumeral)
  | operator punctuates other =>
    refine .inr (.inr ⟨_, rfl, punctuates, ?_⟩)
    rintro rfl
    exact other (by simp)
  | _ => exact .inr (.inr ⟨_, rfl, rfl, by decide⟩)

/-- Tokens are spelled with readable characters that are neither blank nor marks of comments. -/
theorem Token.Kind.Spells.readable {kind : Token.Kind} {text : List Char}
    (spells : kind.Spells text) :
    ∀ c ∈ text, isReadable c = true ∧ Text.isBlank c = false ∧ c ≠ '#' := by
  have ofWordChar : ∀ c, isWordChar c = true →
      isReadable c = true ∧ Text.isBlank c = false ∧ c ≠ '#' := by
    intro c inside
    refine ⟨isReadable_of_isWordChar inside, ?_, ?_⟩
    · by_contra white
      obtain ⟨noLetter, noDigit, _⟩ := not_graphic_of_isBlank (by simpa using white)
      simp [isWordChar, noLetter, noDigit] at inside
    · rintro rfl
      exact absurd inside (by decide)
  intro c member
  rcases spells.classes with isWord | isNumeral | ⟨d, rfl, punctuates, noMark⟩
  · obtain ⟨letter, inside⟩ := isWord
    rcases List.mem_cons.mp member with rfl | further
    · exact ofWordChar c (by simp [isWordChar, letter])
    · exact ofWordChar c (inside c further)
  · rcases isNumeral.isDigit_or_point c member with digit | rfl
    · exact ofWordChar c (by simp [isWordChar, digit])
    · decide
  · obtain rfl := List.mem_singleton.mp member
    refine ⟨isReadable_of_isPunctuation punctuates, ?_, noMark⟩
    by_contra white
    obtain ⟨_, _, noPunctuation⟩ := not_graphic_of_isBlank (by simpa using white)
    simp [noPunctuation] at punctuates

/-- Whether a character with the given text before it is commented. -/
inductive IsCommented : List Char → Char → Prop where
  | mark {before : List Char} : IsCommented before '#'
  | behind {earlier between : List Char} {c : Char} (sameLine : '\n' ∉ between) :
      IsCommented (earlier ++ '#' :: between) c

/-- Whether each character of a text is readable or commented. -/
def IsReadableText (text : List Char) : Prop :=
  ∀ before c after, text = before ++ c :: after → IsCommented before c ∨ isReadable c = true

/-- What stands before a comment changes nothing about it. -/
theorem IsCommented.append_left {before : List Char} {c : Char} (commented : IsCommented before c)
    (earlier : List Char) : IsCommented (earlier ++ before) c := by
  cases commented with
  | mark => exact .mark
  | behind sameLine =>
    rw [← List.append_assoc]
    exact .behind sameLine

/-- A character of two texts that are joined stands in the second one or in the first one. -/
theorem eq_append_cons {first second before after : List Char} {c : Char}
    (split : first ++ second = before ++ c :: after) :
    (∃ more, before = first ++ more ∧ second = more ++ c :: after) ∨
      ∃ more, first = before ++ c :: more ∧ after = more ++ second := by
  rcases List.append_eq_append_iff.mp split with ⟨more, behind, same⟩ | ⟨more, within, same⟩
  · exact .inl ⟨more, behind, same⟩
  · cases more with
    | nil => exact .inl ⟨[], by rw [within, List.append_nil, List.append_nil], same.symm⟩
    | cons d more =>
      obtain ⟨rfl, rfl⟩ := List.cons.inj same
      exact .inr ⟨more, within, rfl⟩

namespace Lexeme

/-! ### The first piece -/

/-- A piece begins at every readable character. -/
theorem exists_first {c : Char} (readable : isReadable c = true) (rest : List Char) :
    ∃ lexeme, first? (c :: rest) = some lexeme := by
  simp only [first?]
  split_ifs with letter digit fraction white mark punctuates
  any_goals exact ⟨_, rfl⟩
  simp [isReadable, letter, digit, white, punctuates] at readable

/-- A first piece that makes no token is a run of blanks or a comment. -/
theorem First.of_silent {text : List Char} {lexeme : Lexeme} (first : First text lexeme)
    (silent : lexeme.kind? = none) :
    (∃ c rest, text = c :: rest ∧ Text.isBlank c = true ∧
      lexeme.text = c :: rest.takeWhile Text.isBlank) ∨
    ∃ rest, text = '#' :: rest ∧ lexeme.text = '#' :: rest.takeWhile (· ≠ '\n') := by
  cases first with
  | word _ => cases silent
  | numeral _ => cases silent
  | fraction _ => cases silent
  | blank white => exact .inl ⟨_, _, rfl, white, rfl⟩
  | comment => exact .inr ⟨_, rfl, rfl⟩
  | punctuation _ _ _ _ _ =>
    unfold punctuationShape at silent
    repeat' split at silent
    all_goals cases silent

/-- **What the first piece covers:** readable characters that are no marks of comments, or a comment,
behind which the text ends or a newline stands. -/
theorem First.covers {text rest : List Char} {lexeme : Lexeme} (first : First text lexeme)
    (whole : lexeme.text ++ rest = text) :
    (∀ c ∈ lexeme.text, isReadable c = true ∧ c ≠ '#') ∨
      ∃ body, lexeme.text = '#' :: body ∧ '\n' ∉ body ∧ ∀ c ∈ rest.head?, c = '\n' := by
  cases makes : lexeme.kind? with
  | some kind =>
    left
    intro c member
    obtain ⟨readable, _, noMark⟩ := (first.spells makes).readable c member
    exact ⟨readable, noMark⟩
  | none =>
    rcases first.of_silent makes with ⟨c, others, rfl, white, run⟩ | ⟨others, rfl, run⟩
    · left
      rw [run]
      intro d member
      have blank : Text.isBlank d = true := by
        rcases List.mem_cons.mp member with rfl | further
        · exact white
        · exact List.mem_takeWhile_imp further
      refine ⟨isReadable_of_isBlank blank, ?_⟩
      rintro rfl
      exact absurd blank (by decide)
    · right
      refine ⟨_, run, Text.newline_not_mem_takeWhile others, ?_⟩
      have split : others.takeWhile (· ≠ '\n') ++ rest =
          others.takeWhile (· ≠ '\n') ++ others.dropWhile (· ≠ '\n') := by
        rw [List.takeWhile_append_dropWhile]
        rw [run] at whole
        exact (List.cons.inj whole).2
      obtain rfl := List.append_cancel_left split
      exact Text.eq_newline_of_head?_dropWhile others

/-! ### All pieces -/

theorem joined_append (taken others : List Lexeme) :
    joined (taken ++ others) = joined taken ++ joined others :=
  List.flatMap_append

/-- **Whether pieces are cut off a text one after the other,** each the first one of what is left, up to
where no piece begins. -/
inductive Cuts : List Char → List Lexeme → List Char → Prop where
  | stop {text : List Char} (nothing : first? text = none) : Cuts text [] text
  | piece {text rest leftover : List Char} {lexeme : Lexeme} {others : List Lexeme}
      (first : first? text = some lexeme) (whole : lexeme.text ++ rest = text)
      (further : Cuts rest others leftover) : Cuts text (lexeme :: others) leftover

/-- **The pieces of a text are cut off it,** and nothing begins at what is left over. -/
theorem cuts_pieces (text : List Char) : Cuts text (pieces text).1 (pieces text).2 := by
  induction size : text.length using Nat.strongRecOn generalizing text with
  | ind length ih =>
    cases taken : cut text with
    | none =>
      rw [pieces_of_cut_none taken]
      exact .stop (Option.map_eq_none_iff.mp taken)
    | some pair =>
      obtain ⟨lexeme, rest⟩ := pair
      have shorter := cut_shorter taken
      obtain ⟨found, first, same⟩ := Option.map_eq_some_iff.mp taken
      obtain ⟨rfl, _⟩ := Prod.mk.inj same
      rw [pieces_of_cut_some taken]
      exact .piece first (cut_eq_some taken).1 (ih rest.length (by omega) rest rfl)

namespace Cuts

variable {text leftover : List Char} {lexemes : List Lexeme}

theorem join (cuts : Cuts text lexemes leftover) : joined lexemes ++ leftover = text := by
  induction cuts with
  | stop _ => rfl
  | piece _ whole _ ih =>
    rw [← whole, ← ih]
    exact List.append_assoc _ _ _

/-- What is left over begins with no readable character. -/
theorem not_readable (cuts : Cuts text lexemes leftover) :
    ∀ c ∈ leftover.head?, isReadable c = false := by
  induction cuts with
  | @stop text nothing =>
    intro c head
    cases text with
    | nil => cases head
    | cons d rest =>
      obtain rfl := Option.some.inj head
      by_contra readable
      obtain ⟨lexeme, found⟩ := exists_first (by simpa using readable) rest
      rw [nothing] at found
      cases found
  | piece _ _ _ ih => exact ih

/-- **All that is cut off is readable or commented.** -/
theorem isReadableText (cuts : Cuts text lexemes leftover) : IsReadableText (joined lexemes) := by
  induction cuts with
  | stop _ =>
    intro before c after split
    exact absurd split.symm (List.append_ne_nil_of_right_ne_nil _ (List.cons_ne_nil _ _))
  | @piece text rest leftover lexeme others first whole _ ih =>
    intro before c after split
    rcases eq_append_cons split with ⟨more, rfl, behind⟩ | ⟨more, inside, _⟩
    · exact (ih more c after behind).imp_left fun commented => commented.append_left _
    · have member : c ∈ lexeme.text := inside ▸ List.mem_append_right _ List.mem_cons_self
      rcases (First.of_first? first).covers whole with readable | ⟨body, mark, sameLine, _⟩
      · exact .inr (readable c member).1
      · left
        rw [mark] at inside
        cases before with
        | nil =>
          obtain ⟨rfl, _⟩ := List.cons.inj inside
          exact .mark
        | cons d before =>
          obtain ⟨rfl, rfl⟩ := List.cons.inj inside
          exact @IsCommented.behind [] before c fun newline =>
            sameLine (List.mem_append_left _ newline)

/-- Behind a mark of a comment that is cut off, a newline is cut off too, unless nothing is left. -/
theorem newline_behind_mark (cuts : Cuts text lexemes leftover) (more : leftover ≠ []) :
    ∀ before between, joined lexemes = before ++ '#' :: between → '\n' ∈ between := by
  induction cuts with
  | stop _ =>
    intro before between split
    exact absurd split.symm (List.append_ne_nil_of_right_ne_nil _ (List.cons_ne_nil _ _))
  | @piece text rest leftover lexeme others first whole further ih =>
    intro before between split
    rcases eq_append_cons split with ⟨gap, rfl, behind⟩ | ⟨gap, inside, rfl⟩
    · exact ih more gap between behind
    · have member : '#' ∈ lexeme.text := inside ▸ List.mem_append_right _ List.mem_cons_self
      rcases (First.of_first? first).covers whole with readable | ⟨_, _, _, stops⟩
      · exact absurd rfl (readable '#' member).2
      · -- The comment ends before a newline, and a piece begins there.
        apply List.mem_append_right
        have joined := further.join
        show '\n' ∈ Lexeme.joined others
        cases front : Lexeme.joined others with
        | nil =>
          rw [front, List.nil_append] at joined
          obtain ⟨c, others, rfl⟩ := List.exists_cons_of_ne_nil more
          subst joined
          obtain rfl := stops c rfl
          exact absurd (further.not_readable '\n' rfl) (by decide)
        | cons c others =>
          obtain rfl := stops c (by rw [← joined, front]; rfl)
          exact List.mem_cons_self

/-- **No piece begins at a character that is neither readable nor commented.** -/
theorem not_commented (cuts : Cuts text lexemes leftover) :
    ∀ c ∈ leftover.head?, ¬ IsCommented (joined lexemes) c := by
  intro c head commented
  have unreadable := cuts.not_readable c head
  have more : leftover ≠ [] := by
    rintro rfl
    cases head
  generalize front : joined lexemes = before at commented
  cases commented with
  | mark => exact absurd unreadable (by decide)
  | @behind earlier between _ sameLine =>
    exact sameLine (cuts.newline_behind_mark more earlier between front)

/-- Where some of the pieces have been cut off, the next one is the first piece of what is left. -/
theorem first_behind {taken others : List Lexeme} (cuts : Cuts text (taken ++ others) leftover) :
    first? (joined others ++ leftover) = others.head? := by
  induction taken generalizing text with
  | nil =>
    have whole := cuts.join
    rw [List.nil_append] at cuts whole
    rw [whole]
    cases cuts with
    | stop nothing => exact nothing
    | piece first _ _ => exact first
  | cons lexeme taken ih =>
    cases cuts with
    | piece _ _ further => exact ih further

end Cuts

end Lexeme

/-! ### Sources -/

/-- Whether the first character of a text that is neither readable nor commented stands behind `before`.
-/
structure IsFirstOffender (text before : List Char) (c : Char) : Prop where
  stands : ∃ after, text = before ++ c :: after
  unreadable : isReadable c = false
  notCommented : ¬ IsCommented before c
  first : IsReadableText before

namespace IsFirstOffender

variable {text before before' : List Char} {c c' : Char}

theorem not_isReadableText (offends : IsFirstOffender text before c) : ¬ IsReadableText text := by
  intro fine
  obtain ⟨after, stands⟩ := offends.stands
  rcases fine before c after stands with commented | readable
  · exact offends.notCommented commented
  · exact absurd readable (by simp [offends.unreadable])

/-- **There is one first offender at most.** -/
theorem unique (offends : IsFirstOffender text before c) (offends' : IsFirstOffender text before' c') :
    before = before' ∧ c = c' := by
  obtain ⟨after, rfl⟩ := offends.stands
  obtain ⟨after', same⟩ := offends'.stands
  rcases eq_append_cons same with ⟨more, rfl, behind⟩ | ⟨more, rfl, _⟩
  · cases more with
    | nil => exact ⟨(List.append_nil before).symm, (List.cons.inj behind).1⟩
    | cons d more =>
      obtain ⟨rfl, _⟩ := List.cons.inj behind
      rcases offends'.first before c more rfl with commented | readable
      · exact absurd commented offends.notCommented
      · exact absurd readable (by simp [offends.unreadable])
  · rcases offends.first before' c' more rfl with commented | readable
    · exact absurd commented offends'.notCommented
    · exact absurd readable (by simp [offends'.unreadable])

end IsFirstOffender

/-- **A source is readable and has tokens, or its first offender is reported.** -/
theorem Token.tokenize_or_offender (source : Source) :
    ((∃ tokens, tokenize source = .ok tokens) ∧ IsReadableText source.text.toList) ∨
    ∃ before c, IsFirstOffender source.text.toList before c ∧
      tokenize source = .error
        ⟨.unrecognised (String.singleton c), .ofNat (Text.byteLength before) source.name⟩ := by
  have cuts := Lexeme.cuts_pieces source.text.toList
  have whole := cuts.join
  cases leftover : (Lexeme.pieces source.text.toList).2 with
  | nil =>
    left
    rw [leftover, List.append_nil] at whole
    refine ⟨?_, whole ▸ cuts.isReadableText⟩
    simp only [tokenize, leftover]
    exact ⟨_, rfl⟩
  | cons c after =>
    right
    rw [leftover] at cuts whole
    refine ⟨Lexeme.joined (Lexeme.pieces source.text.toList).1, c, ?_, ?_⟩
    · exact ⟨⟨after, whole.symm⟩, cuts.not_readable c rfl, cuts.not_commented c rfl,
        cuts.isReadableText⟩
    · simp only [tokenize, leftover, stopOffset]

/-- **The cursor stays between characters.** Wherever some of the pieces of a source have been read, a
cursor has a remainder, and there the next piece begins, or none when all have been read. -/
theorem Cursor.remainder_of_taken {cursor : Cursor} {taken others : List Lexeme}
    (split : (Lexeme.pieces cursor.source.text.toList).1 = taken ++ others)
    (reached : cursor.offset.toNat = Text.byteLength (Lexeme.joined taken)) :
    ∃ rest, cursor.remainder? = some rest ∧ Lexeme.first? rest.toList = others.head? := by
  have cuts := Lexeme.cuts_pieces cursor.source.text.toList
  have whole := cuts.join
  rw [split] at cuts whole
  rw [Lexeme.joined_append, List.append_assoc] at whole
  have dropped := Text.dropBytes?_append (Lexeme.joined taken)
    (Lexeme.joined others ++ (Lexeme.pieces cursor.source.text.toList).2)
  rw [whole, ← reached] at dropped
  refine ⟨_, congrArg (Option.map String.ofList) dropped, ?_⟩
  rw [String.toList_ofList]
  exact cuts.first_behind

/-- **The texts that have tokens.** A source has tokens exactly if each of its characters is readable or
commented. Otherwise, and only then, the first character that is neither is reported where it stands.
The pieces are read with a cursor that stays within the source and between characters: wherever some of
them have been read it has a remainder, and there the next piece begins, or none when all have been
read. -/
theorem Token.tokenize_iff_readable (source : Source) :
    ((∃ tokens, tokenize source = .ok tokens) ↔
      ∀ before c after, source.text.toList = before ++ c :: after →
        IsCommented before c ∨ isReadable c = true) ∧
    (∀ diagnostic, tokenize source = .error diagnostic ↔
      ∃ before c, IsFirstOffender source.text.toList before c ∧
        diagnostic =
          ⟨.unrecognised (String.singleton c), .ofNat (Text.byteLength before) source.name⟩) ∧
    ∀ taken others, (Lexeme.pieces source.text.toList).1 = taken ++ others →
      Text.byteLength (Lexeme.joined taken) ≤ Text.byteLength source.text.toList ∧
      ∀ cursor : Cursor, cursor.source = source →
        cursor.offset.toNat = Text.byteLength (Lexeme.joined taken) →
        ∃ rest, cursor.remainder? = some rest ∧ Lexeme.first? rest.toList = others.head? := by
  refine ⟨?_, fun diagnostic => ?_, fun taken others split => ⟨?_, ?_⟩⟩
  · rcases tokenize_or_offender source with ⟨lexed, fine⟩ | ⟨before, c, offends, refused⟩
    · exact ⟨fun _ => fine, fun _ => lexed⟩
    · constructor
      · rintro ⟨tokens, lexed⟩
        rw [refused] at lexed
        cases lexed
      · exact fun fine => absurd fine offends.not_isReadableText
  · rcases tokenize_or_offender source with ⟨⟨_, lexed⟩, fine⟩ | ⟨before, c, offends, refused⟩
    · rw [lexed]
      constructor
      · intro failed
        cases failed
      · rintro ⟨_, _, offends, _⟩
        exact absurd fine offends.not_isReadableText
    · rw [refused]
      constructor
      · intro failed
        exact ⟨before, c, offends, (Except.error.inj failed).symm⟩
      · rintro ⟨_, _, offends', rfl⟩
        obtain ⟨rfl, rfl⟩ := offends.unique offends'
        rfl
  · have whole := (Lexeme.cuts_pieces source.text.toList).join
    rw [split, Lexeme.joined_append, List.append_assoc] at whole
    rw [← whole, Text.byteLength_append]
    exact Nat.le_add_right _ _
  · rintro cursor rfl reached
    exact cursor.remainder_of_taken split reached

end OpLang
