/-
**A text is read line by line.**

Nothing is read across a newline: it ends every comment, no word or numeral goes on behind it, and the
blanks around it make no tokens. So the tokens of a text, a newline and a second text are those of the
first one and then those of the second one, moved by the bytes in front of it (`Token.moved`).

`scan` reads a text that starts at a byte offset, and keeps what `tokenize` makes its answer of.

* `first?_append_newline`: the first piece of a text that does not begin with a blank ends at a newline at
  the latest.
* `scan_append_newline`: the induction over the first text. Blanks are skipped one by one (`scan_blank`),
  so that a run of them which goes on behind the newline is no case of its own.
-/

import OpLang.Proofs.Token.Separation
import OpLang.Proofs.Token.Tiling

namespace OpLang

open Text (byteLength)

/-! ### Moved tokens -/

/-- The position some bytes further, modulo `2 ^ 32`. -/
def Position.moved (distance : Nat) (position : Position) : Position :=
  { position with offset := position.offset + UInt32.ofNat distance }

/-- The token some bytes further. -/
def Token.moved (distance : Nat) (token : Token) : Token :=
  { token with span := ⟨token.span.start.moved distance, token.span.stop.moved distance⟩ }

/-- The diagnostic some bytes further. -/
def Diagnostic.moved (distance : Nat) (diagnostic : Diagnostic) : Diagnostic :=
  { diagnostic with position := diagnostic.position.moved distance }

theorem Position.ofNat_add (offset distance : Nat) (name : String) :
    Position.ofNat (offset + distance) name = (Position.ofNat offset name).moved distance := by
  simp [Position.ofNat, Position.moved, UInt32.ofNat_add]

theorem Token.moved_atEnd (distance : Nat) (position : Position) :
    (Token.atEnd position).moved distance = Token.atEnd (position.moved distance) := rfl

namespace Lexeme

/-- Pieces that stand further behind make tokens further behind. -/
theorem tokens_add (name : String) (offset distance : Nat) (lexemes : List Lexeme) :
    tokens name (offset + distance) lexemes =
      (tokens name offset lexemes).map (Token.moved distance) := by
  induction lexemes generalizing offset with
  | nil => rfl
  | cons lexeme others ih =>
    have here : lexeme.token? name (offset + distance) =
        (lexeme.token? name offset).map (Token.moved distance) := by
      cases makes : lexeme.kind? with
      | none => simp [token?, makes]
      | some kind =>
        simp [token?, makes, Token.moved, Span.ofNat, ← Position.ofNat_add, Nat.add_right_comm]
    rw [tokens, tokens, here, Nat.add_right_comm, ih, List.map_append]
    cases lexeme.token? name offset <;> rfl

/-! ### Scans -/

/-- What reading a text comes to: its tokens, the offset where its pieces end, and what is left over. -/
structure Scan where
  tokens : List Token
  stop : Nat
  leftover : List Char

/-- The scan of a text that starts at a byte offset. -/
def scan (name : String) (offset : Nat) (text : List Char) : Scan :=
  ⟨tokens name offset (pieces text).1, offset + byteLength (joined (pieces text).1), (pieces text).2⟩

/-- The scan with earlier tokens put before its own. -/
def Scan.behind (earlier : List Token) (scan : Scan) : Scan :=
  { scan with tokens := earlier ++ scan.tokens }

/-- A scan and the one of the text behind it. What is left over stops the first one before that text. -/
def Scan.followedBy (first second : Scan) (text : List Char) : Scan :=
  match first.leftover with
  | [] => second.behind first.tokens
  | c :: rest => { first with leftover := c :: rest ++ text }

theorem Scan.behind_followedBy (earlier : List Token) (first second : Scan) (text : List Char) :
    (first.behind earlier).followedBy second text = (first.followedBy second text).behind earlier := by
  obtain ⟨tokens, stop, leftover⟩ := first
  cases leftover with
  | nil => simp only [followedBy, behind, List.append_assoc]
  | cons c rest => rfl

/-- The tokens of a scan with the end behind them, or the diagnostic of what is left over. -/
def Scan.answer (name : String) (scan : Scan) : Except Diagnostic (List Token) :=
  match scan.leftover with
  | [] => .ok (scan.tokens ++ [Token.atEnd (Position.ofNat scan.stop name)])
  | c :: _ => .error ⟨.unrecognised (String.singleton c), Position.ofNat scan.stop name⟩

theorem tokenize_eq_answer (source : Source) :
    Token.tokenize source = (scan source.name 0 source.text.toList).answer source.name := by
  unfold Token.tokenize Scan.answer scan
  rw [Nat.zero_add]
  rfl

/-- Where no piece begins, all is left over. -/
theorem scan_of_nothing {text : List Char} (nothing : first? text = none) (name : String)
    (offset : Nat) : scan name offset text = ⟨[], offset, text⟩ := by
  have taken : cut text = none := by rw [cut, nothing]; rfl
  rw [scan, pieces_of_cut_none taken]
  rfl

/-- A scan takes the first piece off, and goes on behind it. -/
theorem scan_of_first {text rest : List Char} {lexeme : Lexeme} (found : first? text = some lexeme)
    (whole : lexeme.text ++ rest = text) (name : String) (offset : Nat) :
    scan name offset text =
      (scan name (offset + byteLength lexeme.text) rest).behind
        (lexeme.token? name offset).toList := by
  have taken : cut text = some (lexeme, rest) := by
    rw [cut, found, ← whole]
    simp
  have size : byteLength (joined (lexeme :: (pieces rest).1)) =
      byteLength lexeme.text + byteLength (joined (pieces rest).1) :=
    Text.byteLength_append _ _
  unfold scan
  rw [pieces_of_cut_some taken, size, ← Nat.add_assoc]
  rfl

/-- A scan further behind makes tokens further behind. -/
theorem scan_add (name : String) (offset distance : Nat) (text : List Char) :
    scan name (offset + distance) text =
      { scan name offset text with
        tokens := (scan name offset text).tokens.map (Token.moved distance)
        stop := (scan name offset text).stop + distance } := by
  unfold scan
  rw [tokens_add, Nat.add_right_comm]

/-! ### Blanks -/

theorem scan_dropWhile_isBlank (name : String) (offset : Nat) (text : List Char) :
    scan name (offset + byteLength (text.takeWhile Text.isBlank)) (text.dropWhile Text.isBlank) =
      scan name offset text := by
  cases text with
  | nil => rfl
  | cons c rest =>
    by_cases white : Text.isBlank c = true
    · rw [scan_of_first (first?_of_isBlank white rest)
        (congrArg (c :: ·) List.takeWhile_append_dropWhile), List.dropWhile_cons_of_pos white,
        List.takeWhile_cons_of_pos white]
      rfl
    · rw [List.dropWhile_cons_of_neg white, List.takeWhile_cons_of_neg white]
      rfl

/-- A blank in front is skipped. -/
theorem scan_blank {c : Char} (white : Text.isBlank c = true) (name : String) (offset : Nat)
    (text : List Char) : scan name offset (c :: text) = scan name (offset + c.utf8Size) text := by
  rw [← scan_dropWhile_isBlank name offset (c :: text), List.takeWhile_cons_of_pos white,
    List.dropWhile_cons_of_pos white, Text.byteLength_cons, ← Nat.add_assoc, scan_dropWhile_isBlank]

/-! ### Newlines -/

/-- What a newline ends is taken as if the text ended there. -/
theorem takeWhile_append_newline (property : Char → Bool) (ends : property '\n' = false)
    (front back : List Char) :
    (front ++ '\n' :: back).takeWhile property = front.takeWhile property := by
  induction front with
  | nil => simp [ends]
  | cons c front ih =>
    rw [List.cons_append, List.takeWhile_cons, List.takeWhile_cons, ih]

theorem dropWhile_append_newline (property : Char → Bool) (ends : property '\n' = false)
    (front back : List Char) :
    (front ++ '\n' :: back).dropWhile property = front.dropWhile property ++ '\n' :: back := by
  induction front with
  | nil => simp [ends]
  | cons c front ih =>
    rw [List.cons_append, List.dropWhile_cons, List.dropWhile_cons, ih]
    split <;> rfl

theorem pointPart_append_newline (front back : List Char) :
    pointPart (front ++ '\n' :: back) = pointPart front := by
  cases front with
  | nil => rfl
  | cons c front =>
    by_cases point : c = '.'
    · subst point
      exact congrArg ('.' :: ·) (takeWhile_append_newline Numeral.isDigit (by decide) front back)
    · simp [pointPart, point]

/-- **No piece goes on behind a newline,** unless it begins with a blank. -/
theorem first?_append_newline {c : Char} (solid : Text.isBlank c = false) (front back : List Char) :
    first? (c :: (front ++ '\n' :: back)) = first? (c :: front) := by
  have head : (front ++ '\n' :: back).head?.any Numeral.isDigit = front.head?.any Numeral.isDigit := by
    cases front <;> rfl
  have word := takeWhile_append_newline isWordChar (by decide) front back
  have digits := takeWhile_append_newline Numeral.isDigit (by decide) front back
  have behind := dropWhile_append_newline Numeral.isDigit (by decide) front back
  have comment := takeWhile_append_newline (· ≠ '\n') (by decide) front back
  simp only [first?, solid, word, digits, behind, comment, head, pointPart_append_newline,
    Bool.false_eq_true, if_false]

/-- **A newline parts a scan in two.** -/
theorem scan_append_newline (name : String) (offset : Nat) (first second : List Char) :
    scan name offset (first ++ '\n' :: second) =
      (scan name offset first).followedBy (scan name (offset + byteLength first + 1) second)
        ('\n' :: second) := by
  induction size : first.length using Nat.strongRecOn generalizing first offset with
  | ind length ih =>
    subst size
    cases first with
    | nil =>
      have nothing : scan name offset [] = ⟨[], offset, []⟩ := scan_of_nothing rfl name offset
      rw [nothing, List.nil_append, scan_blank (by decide)]
      rfl
    | cons c rest =>
      by_cases white : Text.isBlank c = true
      · have size : offset + byteLength (c :: rest) + 1 =
            offset + c.utf8Size + byteLength rest + 1 := by
          rw [Text.byteLength_cons, ← Nat.add_assoc offset]
        rw [List.cons_append, scan_blank white, scan_blank white, size]
        exact ih rest.length (Nat.lt_succ_self _) _ rest rfl
      have same := first?_append_newline (by simpa using white) rest second
      cases found : first? (c :: rest) with
      | none =>
        rw [found] at same
        rw [scan_of_nothing found]
        exact scan_of_nothing same name offset
      | some lexeme =>
        rw [found] at same
        obtain ⟨⟨behind, whole⟩, nonempty⟩ := first?_isPrefix found
        have shorter : behind.length < (c :: rest).length := by
          rw [← whole, List.length_append]
          have := List.length_pos_iff.mpr nonempty
          omega
        have whole' : lexeme.text ++ (behind ++ '\n' :: second) = c :: (rest ++ '\n' :: second) := by
          rw [← List.append_assoc, whole]
          rfl
        have size : offset + byteLength (c :: rest) =
            offset + byteLength lexeme.text + byteLength behind := by
          rw [← whole, Text.byteLength_append, Nat.add_assoc]
        rw [List.cons_append, scan_of_first same whole', scan_of_first found whole, size,
          ih behind.length shorter _ behind rfl, Scan.behind_followedBy]

end Lexeme

/-! ### Sources -/

/-- **Reading is a homomorphism over lines.** A text that cannot be read cannot be read either with a
newline and a second text behind it, for the same reason at the same place. Otherwise the two are read as
the tokens of the first text but for its end, and then what the second text is read as, or why it cannot be
read, moved by the bytes in front of it. -/
theorem Token.tokenize_append_newline (first second name : String) :
    match tokenize ⟨first, name⟩ with
    | .error diagnostic => tokenize ⟨first ++ "\n" ++ second, name⟩ = .error diagnostic
    | .ok tokens =>
      ∃ front stop, tokens = front ++ [atEnd stop] ∧
        tokenize ⟨first ++ "\n" ++ second, name⟩ =
          match tokenize ⟨second, name⟩ with
          | .error diagnostic => .error (diagnostic.moved (first.utf8ByteSize + 1))
          | .ok others => .ok (front ++ others.map (Token.moved (first.utf8ByteSize + 1))) := by
  have joined : (first ++ "\n" ++ second).toList = first.toList ++ '\n' :: second.toList := by
    simp
  have parted := Lexeme.scan_append_newline name 0 first.toList second.toList
  rw [← joined, Nat.add_assoc, Lexeme.scan_add, Text.byteLength_toList] at parted
  simp only [Lexeme.tokenize_eq_answer, parted]
  unfold Lexeme.Scan.followedBy
  cases leftover : (Lexeme.scan name 0 first.toList).leftover with
  | cons c rest => simp only [Lexeme.Scan.answer, leftover, List.cons_append]
  | nil =>
    simp only [Lexeme.Scan.answer, leftover, Lexeme.Scan.behind]
    refine ⟨_, _, rfl, ?_⟩
    cases (Lexeme.scan name 0 second.toList).leftover with
    | cons c rest => simp only [Diagnostic.moved, Position.ofNat_add]
    | nil =>
      simp only [List.map_append, List.map_cons, List.map_nil, Token.moved_atEnd,
        Position.ofNat_add, List.append_assoc]

/-- The comment ends with its line, and what follows it is moved by the bytes of both its characters. -/
example : Token.tokenize ⟨"x #\u00e9\n1", "a.k"⟩ = .ok
    [⟨.identifier, "x", .ofNat 0 1 "a.k"⟩, ⟨.number, "1", .ofNat 6 1 "a.k"⟩,
      .atEnd (.ofNat 7 "a.k")] := by
  have pieces : Lexeme.pieces "x #\u00e9\n1".toList =
      ([⟨.word, ['x']⟩, ⟨.blank, [' ']⟩, ⟨.comment, ['#', '\u00e9']⟩, ⟨.blank, ['\n']⟩,
        ⟨.numeral, ['1']⟩], []) := by cbv
  rw [tokenize_of_pieces pieces]
  rfl

end OpLang
