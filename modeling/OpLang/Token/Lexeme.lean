/-
**Lexemes: the pieces of a source text.**

Every piece of a text has one of nine shapes, and its first character, with the character after it
for a point, decides which. A piece is as long as its shape allows. `cut` takes the first piece off
a text and `pieces` takes pieces off until the text is used up or begins with a character that
begins no piece. Nothing is lost: the pieces and what is left over join to the text (`pieces_join`).
-/

import OpLang.Text.Blank
import OpLang.Text.Bytes
import OpLang.Number.Numeral
import OpLang.Token

namespace OpLang

/-! ### Characters -/

/-- The ASCII letters. -/
def isLetter (c : Char) : Bool :=
  ('a' ≤ c && c ≤ 'z') || ('A' ≤ c && c ≤ 'Z')

/-- The characters of a word after its first letter. -/
def isWordChar (c : Char) : Bool :=
  isLetter c || Numeral.isDigit c

/-- The ASCII punctuation characters. -/
def isPunctuation (c : Char) : Bool :=
  ('!' ≤ c && c ≤ '/') || (':' ≤ c && c ≤ '@') || ('[' ≤ c && c ≤ '\x60') || ('\x7b' ≤ c && c ≤ '~')

/-! ### Pieces -/

/-- The shapes of pieces. -/
inductive Lexeme.Shape where
  | word
  | numeral
  | blank
  | comment
  | openParen
  | closeParen
  | comma
  | semicolon
  | operator
deriving DecidableEq, Repr

/-- A piece of a text with its shape. -/
structure Lexeme where
  shape : Lexeme.Shape
  text : List Char
deriving DecidableEq, Repr

namespace Lexeme

/-- The shape of a piece that is one punctuation character. -/
def punctuationShape (c : Char) : Shape :=
  if c = '(' then .openParen
  else if c = ')' then .closeParen
  else if c = ',' then .comma
  else if c = ';' then .semicolon
  else .operator

/-- A numeral's point with the digits after it, at the start of what follows the digits before it.
-/
def pointPart : List Char → List Char
  | '.' :: rest => '.' :: rest.takeWhile Numeral.isDigit
  | _ => []

/-- The first piece of a text. -/
def first? : List Char → Option Lexeme
  | [] => none
  | c :: rest =>
    if isLetter c then some ⟨.word, c :: rest.takeWhile isWordChar⟩
    else if Numeral.isDigit c then
      some ⟨.numeral,
        c :: rest.takeWhile Numeral.isDigit ++ pointPart (rest.dropWhile Numeral.isDigit)⟩
    else if c = '.' ∧ rest.head?.any Numeral.isDigit then
      some ⟨.numeral, c :: rest.takeWhile Numeral.isDigit⟩
    else if Text.isBlank c then some ⟨.blank, c :: rest.takeWhile Text.isBlank⟩
    else if c = '#' then some ⟨.comment, c :: rest.takeWhile (· ≠ '\n')⟩
    else if isPunctuation c then some ⟨punctuationShape c, [c]⟩
    else none

/-- The point part of a numeral stands at the start of the text. -/
theorem pointPart_isPrefix (text : List Char) : pointPart text <+: text := by
  unfold pointPart
  split
  · exact (List.prefix_cons_inj _).mpr <| List.takeWhile_prefix _
  · exact List.nil_prefix

/-- The digits of a numeral with its point part stand at the start of the text. -/
theorem numeralTail_isPrefix (text : List Char) :
    text.takeWhile Numeral.isDigit ++ pointPart (text.dropWhile Numeral.isDigit) <+: text := by
  conv => rhs; rw [← List.takeWhile_append_dropWhile (p := Numeral.isDigit) (l := text)]
  exact (List.prefix_append_right_inj _).mpr (pointPart_isPrefix _)

/-- A character before the start of a text stands at the start of the longer text. -/
private theorem begins {c : Char} {tail rest : List Char} {shape : Shape} {lexeme : Lexeme}
    (found : some (Lexeme.mk shape (c :: tail)) = some lexeme) (first : tail <+: rest) :
    lexeme.text <+: c :: rest ∧ lexeme.text ≠ [] := by
  obtain rfl := Option.some.inj found
  exact ⟨(List.prefix_cons_inj _).mpr first, List.cons_ne_nil _ _⟩

/-- **The first piece stands at the start of the text,** and it is not empty. -/
theorem first?_isPrefix {text : List Char} {lexeme : Lexeme} (found : first? text = some lexeme) :
    lexeme.text <+: text ∧ lexeme.text ≠ [] := by
  cases text with
  | nil => simp [first?] at found
  | cons c rest =>
    simp only [first?] at found
    split at found
    · exact begins found <| List.takeWhile_prefix _
    split at found
    · exact begins found (numeralTail_isPrefix _)
    split at found
    · exact begins found <| List.takeWhile_prefix _
    split at found
    · exact begins found <| List.takeWhile_prefix _
    split at found
    · exact begins found <| List.takeWhile_prefix _
    split at found
    · exact begins found List.nil_prefix
    · simp at found

/-- The first piece of a text and what follows it. -/
def cut (text : List Char) : Option (Lexeme × List Char) :=
  (first? text).map fun lexeme => (lexeme, text.drop lexeme.text.length)

/-- A cut takes a piece that is not empty off the start of the text. -/
theorem cut_eq_some {text rest : List Char} {lexeme : Lexeme}
    (taken : cut text = some (lexeme, rest)) : lexeme.text ++ rest = text ∧ lexeme.text ≠ [] := by
  obtain ⟨found, first, equal⟩ := Option.map_eq_some_iff.mp taken
  obtain ⟨rfl, rfl⟩ := Prod.mk.inj equal
  obtain ⟨⟨back, joined⟩, nonempty⟩ := first?_isPrefix first
  exact ⟨by rw [← joined]; simp, nonempty⟩

/-- What follows the first piece is shorter than the text. -/
theorem cut_shorter {text rest : List Char} {lexeme : Lexeme}
    (taken : cut text = some (lexeme, rest)) : rest.length < text.length := by
  obtain ⟨joined, nonempty⟩ := cut_eq_some taken
  have := List.length_pos_iff.mpr nonempty
  rw [← joined, List.length_append]
  omega

/-- **The pieces of a text,** and what is left over where no piece begins. -/
def pieces (text : List Char) : List Lexeme × List Char :=
  match _ : cut text with
  | none => ([], text)
  | some (lexeme, rest) =>
    let (others, leftover) := pieces rest
    (lexeme :: others, leftover)
termination_by text.length
decreasing_by exact cut_shorter ‹_›

/-- The text of a list of pieces. -/
def joined (lexemes : List Lexeme) : List Char :=
  lexemes.flatMap Lexeme.text

theorem pieces_of_cut_none {text : List Char} (nothing : cut text = none) :
    pieces text = ([], text) := by
  rw [pieces]
  split
  · rfl
  · simp_all

theorem pieces_of_cut_some {text rest : List Char} {lexeme : Lexeme}
    (taken : cut text = some (lexeme, rest)) :
    pieces text = (lexeme :: (pieces rest).1, (pieces rest).2) := by
  rw [pieces]
  split
  · simp_all
  · rename_i other more found
    rw [taken] at found
    obtain ⟨rfl, rfl⟩ := Prod.mk.inj (Option.some.inj found)
    rfl

/-- **Nothing is lost:** the pieces of a text and what is left over join to the text. -/
theorem pieces_join (text : List Char) : joined (pieces text).1 ++ (pieces text).2 = text := by
  induction size : text.length using Nat.strongRecOn generalizing text with
  | ind length ih =>
    cases taken : cut text with
    | none => simp [pieces_of_cut_none taken, joined]
    | some pair =>
      obtain ⟨lexeme, rest⟩ := pair
      have shorter := cut_shorter taken
      have tail := ih rest.length (by omega) rest rfl
      rw [pieces_of_cut_some taken]
      simp only [joined, List.flatMap_cons, List.append_assoc] at tail ⊢
      rw [tail, (cut_eq_some taken).1]

/-! ### From pieces to tokens -/

/-- The kind of token that a piece makes; blanks and comments make none. -/
def kind? (lexeme : Lexeme) : Option Token.Kind :=
  match lexeme.shape with
  | .word =>
    some (if lexeme.text = "def".toList then .defKeyword
      else if lexeme.text = "extern".toList then .externKeyword
      else .identifier)
  | .numeral => some .number
  | .blank => none
  | .comment => none
  | .openParen => some .openParen
  | .closeParen => some .closeParen
  | .comma => some .comma
  | .semicolon => some .semicolon
  | .operator => some .operator

/-- The token that a piece makes at a byte offset of the source called `source`. -/
def token? (source : String) (offset : Nat) (lexeme : Lexeme) : Option Token :=
  lexeme.kind?.map fun kind =>
    ⟨kind, String.ofList lexeme.text, Span.ofNat offset (Text.byteLength lexeme.text) source⟩

/-- The tokens of pieces that stand one after the other from a byte offset on. -/
def tokens (source : String) : Nat → List Lexeme → List Token
  | _, [] => []
  | offset, lexeme :: others =>
    (lexeme.token? source offset).toList ++
      tokens source (offset + Text.byteLength lexeme.text) others

end Lexeme

end OpLang
