/-
**The tokens of a source tile it.**

What stands before the first token, between two tokens and behind the last one are gaps: blanks, and
comments that run up to a newline or to the end (`IsGap`). `Tiles name offset text tokens` says that the
tokens are those of a text that starts at a byte offset: a gap and a lexeme, again and again, and after a
last gap the end. Every lexeme is spelled as its kind demands and is as long as it can be.

* `tiles_of_tokenize`: the tokens of a source tile it, by induction over its pieces. A blank or a comment
  lengthens the gap before the next lexeme (`Tiles.skip`).
* `tokenize_isTilingFrom`: read at the offsets that the tokens carry, nothing of the source is lost. Offsets
  are kept in thirty-two bits, so the source must be shorter than `2 ^ 32` bytes.
-/

import Mathlib.Algebra.Group.Nat.Defs
import OpLang.Proofs.Text.Line
import OpLang.Proofs.Token.Spelling

namespace OpLang

open Text (byteLength)

/-! ### Gaps -/

/-- **Whether a part of a text is a gap:** blanks and comments, with `rest` behind them. A comment runs
up to a newline or to the end of the text. -/
inductive IsGap (rest : List Char) : List Char → Prop where
  | nothing : IsGap rest []
  | blank {c : Char} {gap : List Char} (white : Text.isBlank c = true) (others : IsGap rest gap) :
      IsGap rest (c :: gap)
  | comment {body gap : List Char} (inside : '\n' ∉ body)
      (stops : ∀ c ∈ (gap ++ rest).head?, c = '\n') (others : IsGap rest gap) :
      IsGap rest ('#' :: body ++ gap)

/-- Blanks before a gap lengthen it. -/
theorem IsGap.append_blanks {blanks gap rest : List Char}
    (white : ∀ c ∈ blanks, Text.isBlank c = true) (gapped : IsGap rest gap) :
    IsGap rest (blanks ++ gap) := by
  induction blanks with
  | nil => exact gapped
  | cons c blanks ih =>
    exact .blank (white c List.mem_cons_self)
      (ih fun d member => white d (List.mem_cons_of_mem _ member))

/-- A piece that makes no token lengthens the gap behind it. -/
theorem Lexeme.First.isGap {text gap rest : List Char} {lexeme : Lexeme} (first : First text lexeme)
    (silent : lexeme.kind? = none) (whole : lexeme.text ++ (gap ++ rest) = text)
    (gapped : IsGap rest gap) : IsGap rest (lexeme.text ++ gap) := by
  cases first with
  | word _ => cases silent
  | numeral _ => cases silent
  | fraction _ => cases silent
  | @blank c text white =>
    refine gapped.append_blanks fun d member => ?_
    rcases List.mem_cons.mp member with rfl | further
    · exact white
    · exact List.mem_takeWhile_imp further
  | @comment text =>
    have split : text.takeWhile (· ≠ '\n') ++ (gap ++ rest) =
        text.takeWhile (· ≠ '\n') ++ text.dropWhile (· ≠ '\n') := by
      rw [List.takeWhile_append_dropWhile]
      exact (List.cons.inj whole).2
    have behind : gap ++ rest = text.dropWhile (· ≠ '\n') := List.append_cancel_left split
    refine .comment (Text.newline_not_mem_takeWhile text) ?_ gapped
    rw [behind]
    exact Text.eq_newline_of_head?_dropWhile text
  | @punctuation c _ _ _ _ _ _ =>
    unfold punctuationShape at silent
    repeat' split at silent
    all_goals cases silent

/-! ### Tilings -/

/-- **The tokens of a text that starts at a byte offset,** gap by gap and lexeme by lexeme. -/
inductive Tiles (name : String) : Nat → List Char → List Token → Prop where
  | last {offset : Nat} {gap : List Char} (gapped : IsGap [] gap) :
      Tiles name offset gap [Token.atEnd (Position.ofNat (offset + byteLength gap) name)]
  | lexeme {offset : Nat} {gap value rest : List Char} {kind : Token.Kind} {others : List Token}
      (gapped : IsGap (value ++ rest) gap) (spells : kind.Spells value)
      (longest : IsLongest value (value ++ rest))
      (tiles : Tiles name (offset + byteLength gap + byteLength value) rest others) :
      Tiles name offset (gap ++ (value ++ rest))
        (⟨kind, String.ofList value, Span.ofNat (offset + byteLength gap) (byteLength value) name⟩ ::
          others)

/-- A piece that makes no token belongs to the gap behind it. -/
theorem Tiles.skip {name : String} {offset : Nat} {text rest : List Char} {lexeme : Lexeme}
    {tokens : List Token} (first : Lexeme.First text lexeme) (silent : lexeme.kind? = none)
    (whole : lexeme.text ++ rest = text)
    (tiles : Tiles name (offset + byteLength lexeme.text) rest tokens) :
    Tiles name offset text tokens := by
  subst whole
  cases tiles with
  | last gapped =>
    rw [Nat.add_assoc, ← Text.byteLength_append]
    exact .last (first.isGap silent (by rw [List.append_nil]) gapped)
  | @lexeme _ gap value rest kind others gapped spells longest tiles =>
    rw [Nat.add_assoc offset, ← Text.byteLength_append] at tiles ⊢
    rw [← List.append_assoc]
    exact .lexeme (first.isGap silent rfl gapped) spells longest tiles

/-- Where pieces use a text up, their tokens and the end tile it. -/
theorem tiles_of_pieces (name : String) {text : List Char} (offset : Nat)
    (nothing : (Lexeme.pieces text).2 = []) :
    Tiles name offset text (Lexeme.tokens name offset (Lexeme.pieces text).1 ++
      [Token.atEnd (Position.ofNat (offset + byteLength text) name)]) := by
  induction size : text.length using Nat.strongRecOn generalizing text offset with
  | ind length ih =>
    cases taken : Lexeme.cut text with
    | none =>
      rw [Lexeme.pieces_of_cut_none taken] at nothing ⊢
      obtain rfl : text = [] := nothing
      exact .last .nothing
    | some cut =>
      obtain ⟨lexeme, rest⟩ := cut
      obtain ⟨whole, _⟩ := Lexeme.cut_eq_some taken
      have shorter := Lexeme.cut_shorter taken
      have first : Lexeme.First text lexeme := by
        obtain ⟨_, found, same⟩ := Option.map_eq_some_iff.mp taken
        obtain ⟨rfl, _⟩ := Prod.mk.inj same
        exact .of_first? found
      rw [Lexeme.pieces_of_cut_some taken] at nothing ⊢
      have tiles := ih rest.length (by omega) (offset + byteLength lexeme.text) nothing rfl
      have stop : offset + byteLength text =
          offset + byteLength lexeme.text + byteLength rest := by
        rw [← whole, Text.byteLength_append, Nat.add_assoc]
      rw [stop]
      cases makes : lexeme.kind? with
      | none =>
        have silent : lexeme.token? name offset = none := by rw [Lexeme.token?, makes]; rfl
        simp only [Lexeme.tokens, silent, Option.toList_none, List.nil_append]
        exact tiles.skip first makes whole
      | some kind =>
        have token : lexeme.token? name offset = some ⟨kind, String.ofList lexeme.text,
            Span.ofNat offset (byteLength lexeme.text) name⟩ := by rw [Lexeme.token?, makes]; rfl
        simp only [Lexeme.tokens, token, Option.toList_some, List.cons_append, List.nil_append]
        subst whole
        exact @Tiles.lexeme name offset [] _ _ _ _ .nothing (first.spells makes)
          (first.longest (by rw [makes]; rfl)) tiles

/-- A source that its pieces use up has their tokens and its end. -/
theorem tokenize_of_pieces {source : Source} {lexemes : List Lexeme}
    (pieces : Lexeme.pieces source.text.toList = (lexemes, [])) :
    Token.tokenize source = .ok (Lexeme.tokens source.name 0 lexemes ++
      [Token.atEnd (Position.ofNat (byteLength source.text.toList) source.name)]) := by
  have joined := Lexeme.pieces_join source.text.toList
  rw [pieces, List.append_nil] at joined
  simp only [Token.tokenize, Token.stopOffset, pieces, joined]

/-- **The tokens of a source tile it.** -/
theorem tiles_of_tokenize {source : Source} {tokens : List Token}
    (lexed : Token.tokenize source = .ok tokens) :
    Tiles source.name 0 source.text.toList tokens := by
  cases leftover : (Lexeme.pieces source.text.toList).2 with
  | nil =>
    rw [tokenize_of_pieces (Prod.ext rfl leftover)] at lexed
    obtain rfl := Except.ok.inj lexed
    have tiles := tiles_of_pieces source.name 0 leftover
    rw [Nat.zero_add] at tiles
    exact tiles
  | cons c others =>
    simp only [Token.tokenize, leftover] at lexed
    cases lexed

/-- Every token that tiles a text, but for its end, is spelled as the tokens of its kind are. -/
theorem Tiles.spells {name : String} {offset : Nat} {text : List Char} {tokens : List Token}
    (tiles : Tiles name offset text tokens) :
    ∀ token ∈ tokens, token.kind ≠ .eof → token.kind.Spells token.value.toList := by
  induction tiles with
  | last _ =>
    intro token member inner
    obtain rfl := List.mem_singleton.mp member
    exact absurd rfl inner
  | lexeme _ spells _ _ ih =>
    intro token member inner
    rcases List.mem_cons.mp member with rfl | further
    · rw [String.toList_ofList]
      exact spells
    · exact ih token further inner

/-! ### Offsets into a source -/

/-- The bytes of a text are those of its UTF-8 form. -/
theorem Text.byteLength_eq_size (text : List Char) : byteLength text = text.utf8Encode.size := by
  induction text with
  | nil => rfl
  | cons c rest ih =>
    rw [List.utf8Encode_cons, ByteArray.size_append, List.utf8Encode_singleton,
      List.size_toByteArray, String.length_utf8EncodeChar, ← ih]
    rfl

theorem Text.byteLength_toList (text : String) : byteLength text.toList = text.utf8ByteSize := by
  rw [byteLength_eq_size, String.utf8Encode_toList, String.size_toByteArray]

/-- Whether `part` stands in a text from one byte offset to another, with `rest` behind it. -/
def Text.HasStretch (text : List Char) (start stop : Nat) (part rest : List Char) : Prop :=
  ∃ before, text = before ++ (part ++ rest) ∧ byteLength before = start ∧
    start + byteLength part = stop

/-- Whether nothing but a gap stands in a source from one offset to another. -/
def Source.HasGap (source : Source) (start stop : UInt32) : Prop :=
  start ≤ stop ∧ ∃ gap rest, IsGap rest gap ∧
    Text.HasStretch source.text.toList start.toNat stop.toNat gap rest

/-- **Whether a token is a lexeme of a source:** it stands there from its start to its stop, spelled as
its kind demands, and neither a word nor a numeral that starts there is longer. -/
structure Token.IsLexemeOf (source : Source) (token : Token) : Prop where
  start_source : token.span.start.source = source.name
  stop_source : token.span.stop.source = source.name
  start_lt_stop : token.span.start.offset < token.span.stop.offset
  spells : token.kind.Spells token.value.toList
  stands : ∃ rest, IsLongest token.value.toList (token.value.toList ++ rest) ∧
    Text.HasStretch source.text.toList token.span.start.offset.toNat token.span.stop.offset.toNat
      token.value.toList rest

/-- **Whether tokens tile a source from an offset on:** they are lexemes of the source and one end, which
stands where the source ends, and there are gaps before the first token and between neighbours. -/
structure IsTilingFrom (source : Source) (start : UInt32) (tokens : List Token) : Prop where
  lexemes : ∃ lexemes stop, tokens = lexemes ++ [Token.atEnd ⟨stop, source.name⟩] ∧
    stop.toNat = source.text.utf8ByteSize ∧
    ∀ token ∈ lexemes, token.kind ≠ .eof ∧ token.IsLexemeOf source
  before : ∀ first ∈ tokens.head?, source.HasGap start first.span.start.offset
  between : ∀ front token next back, tokens = front ++ token :: next :: back →
    source.HasGap token.span.stop.offset next.span.start.offset

section Offsets

variable {source : Source} {before text value rest gap : List Char} {tokens : List Token}

/-- A part of a source, with what stands before it and behind it, read at the offsets where it is. -/
theorem Source.offsets_of_parts (fits : source.text.utf8ByteSize < 2 ^ 32)
    (whole : source.text.toList = before ++ (value ++ rest)) :
    (UInt32.ofNat (byteLength before)).toNat = byteLength before ∧
      (UInt32.ofNat (byteLength before + byteLength value)).toNat =
        byteLength before + byteLength value ∧
      Text.HasStretch source.text.toList (byteLength before) (byteLength before + byteLength value)
        value rest := by
  have size := Text.byteLength_toList source.text
  simp only [whole, Text.byteLength_append] at size
  exact ⟨UInt32.toNat_ofNat_of_lt' (Nat.lt_of_le_of_lt (by omega) fits),
    UInt32.toNat_ofNat_of_lt' (Nat.lt_of_le_of_lt (by omega) fits), before, whole, rfl, rfl⟩

theorem IsGap.hasGap (gapped : IsGap rest gap) (fits : source.text.utf8ByteSize < 2 ^ 32)
    (whole : source.text.toList = before ++ (gap ++ rest)) :
    source.HasGap (.ofNat (byteLength before)) (.ofNat (byteLength before + byteLength gap)) := by
  obtain ⟨start, stop, stands⟩ := Source.offsets_of_parts fits whole
  refine ⟨?_, gap, rest, gapped, ?_⟩
  · rw [UInt32.le_iff_toNat_le, start, stop]
    exact Nat.le_add_right _ _
  · rw [start, stop]
    exact stands

theorem Token.Kind.Spells.isLexemeOf {kind : Token.Kind} (spells : kind.Spells value)
    (longest : IsLongest value (value ++ rest)) (fits : source.text.utf8ByteSize < 2 ^ 32)
    (whole : source.text.toList = before ++ (value ++ rest)) :
    (Token.mk kind (String.ofList value)
      (Span.ofNat (byteLength before) (byteLength value) source.name)).IsLexemeOf source := by
  obtain ⟨start, stop, stands⟩ := Source.offsets_of_parts fits whole
  refine ⟨rfl, rfl, ?_, ?_, rest, ?_, ?_⟩
  · show UInt32.ofNat (byteLength before) < UInt32.ofNat (byteLength before + byteLength value)
    rw [UInt32.lt_iff_toNat_lt, start, stop]
    exact Nat.lt_add_of_pos_right spells.byteLength_pos
  · rw [String.toList_ofList]
    exact spells
  · rw [String.toList_ofList]
    exact longest
  · show Text.HasStretch _ (UInt32.ofNat (byteLength before)).toNat
      (UInt32.ofNat (byteLength before + byteLength value)).toNat (String.ofList value).toList rest
    rw [start, stop, String.toList_ofList]
    exact stands

/-- **Nothing is lost where the offsets fit.** -/
theorem Tiles.isTilingFrom {offset : Nat} (tiles : Tiles source.name offset text tokens)
    (fits : source.text.utf8ByteSize < 2 ^ 32) (whole : source.text.toList = before ++ text)
    (reached : byteLength before = offset) : IsTilingFrom source (.ofNat offset) tokens := by
  induction tiles generalizing before with
  | @last offset gap gapped =>
    subst reached
    have size := Text.byteLength_toList source.text
    rw [← List.append_nil gap] at whole
    obtain ⟨_, stop, _⟩ := Source.offsets_of_parts fits whole
    refine ⟨⟨[], .ofNat (byteLength before + byteLength gap), rfl, ?_, nofun⟩, ?_, ?_⟩
    · rw [stop, ← size, whole, List.append_nil, Text.byteLength_append]
    · intro first head
      obtain rfl := Option.some.inj head
      exact gapped.hasGap fits whole
    · intro front token next back same
      have length := congrArg List.length same
      simp at length
      omega
  | @lexeme offset gap value rest kind others gapped spells longest _ ih =>
    subst reached
    have behind : source.text.toList = (before ++ gap) ++ (value ++ rest) := by
      rw [whole, List.append_assoc]
    have further : source.text.toList = (before ++ gap ++ value) ++ rest := by
      rw [behind]
      exact (List.append_assoc _ _ _).symm
    have isLexeme := spells.isLexemeOf longest fits behind
    rw [Text.byteLength_append] at isLexeme
    obtain ⟨⟨lexemes, stop, same, atEnd, each⟩, next, between⟩ :=
      ih further (by simp only [Text.byteLength_append])
    refine ⟨⟨_ :: lexemes, stop, congrArg _ same, atEnd, ?_⟩, ?_, ?_⟩
    · intro token member
      rcases List.mem_cons.mp member with rfl | further
      · exact ⟨spells.ne_eof, isLexeme⟩
      · exact each token further
    · intro first head
      obtain rfl := Option.some.inj head
      exact gapped.hasGap fits whole
    · intro front token following back split
      cases front with
      | nil =>
        obtain ⟨rfl, rfl⟩ := List.cons.inj split
        exact next following rfl
      | cons first front => exact between front token following back (List.cons.inj split).2

end Offsets

/-- **The tokens of a source tile it losslessly with maximal munch.** The last token is the end, empty
and at the length of the source, and the only one. Every other one is a lexeme of the source: its value
is what stands there from its start to its stop, which is not empty; it is spelled as its kind demands,
and neither a word nor a numeral at its start is longer. Before the first token, between neighbours and
before the end there are blanks and comments only. -/
theorem tokenize_isTilingFrom {source : Source} {tokens : List Token}
    (fits : source.text.utf8ByteSize < 2 ^ 32) (lexed : Token.tokenize source = .ok tokens) :
    IsTilingFrom source 0 tokens :=
  (tiles_of_tokenize lexed).isTilingFrom fits (List.nil_append _).symm rfl

/-- A comment that holds a character of two bytes, and digits with two points. -/
theorem tokenize_isTilingFrom_comment :
    let source : Source := ⟨"def f #\u00e9\n1.2.3", "sum.k"⟩
    ∃ tokens, tokens.map Token.value = ["def", "f", "1.2", ".3", "EOF"] ∧
      Token.tokenize source = .ok tokens ∧ IsTilingFrom source 0 tokens := by
  intro source
  have pieces : Lexeme.pieces source.text.toList =
      ([⟨.word, "def".toList⟩, ⟨.blank, [' ']⟩, ⟨.word, ['f']⟩, ⟨.blank, [' ']⟩,
        ⟨.comment, "#\u00e9".toList⟩, ⟨.blank, ['\n']⟩, ⟨.numeral, "1.2".toList⟩,
        ⟨.numeral, ".3".toList⟩], []) := by cbv
  have lexed := tokenize_of_pieces pieces
  exact ⟨_, rfl, lexed, tokenize_isTilingFrom (by decide) lexed⟩

end OpLang
