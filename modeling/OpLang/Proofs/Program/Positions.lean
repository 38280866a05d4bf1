/-
**Where the diagnostics of a run stand.**

Every diagnostic of a run is raised at a token, and no token is behind two of them: a parser that fails
stops at the token at fault or behind it, and the one token at which it stopped is skipped. So the
diagnostics are raised along the tokens to come, in order (`RaisedAlong`, `Run.raisedAlong`). The tokens
of a source start further and further to the right (`Tiles.pairwise_precedes`), and so do the
diagnostics.
-/

import OpLang.Proofs.Parser.Walk
import OpLang.Proofs.Program.Turns
import OpLang.Proofs.Token.Tiling

namespace OpLang

/-! ### Diagnostics along tokens -/

/-- **Whether diagnostics are raised along tokens:** each at one of them, in order, and at most one at
each. -/
inductive RaisedAlong : List Diagnostic → List Token → Prop where
  | done {tokens : List Token} : RaisedAlong [] tokens
  | skip {diagnostics : List Diagnostic} {token : Token} {tokens : List Token}
      (others : RaisedAlong diagnostics tokens) : RaisedAlong diagnostics (token :: tokens)
  | raise {diagnostic : Diagnostic} {diagnostics : List Diagnostic} {token : Token}
      {tokens : List Token} (raised : diagnostic = diagnostic.raisedAt token)
      (others : RaisedAlong diagnostics tokens) :
      RaisedAlong (diagnostic :: diagnostics) (token :: tokens)

theorem Diagnostic.quotes_raisedAt (diagnostic : Diagnostic) (token : Token) :
    (diagnostic.raisedAt token).cause.quotes = token.value := by
  obtain ⟨cause, position⟩ := diagnostic
  cases cause <;> rfl

namespace RaisedAlong

variable {diagnostics : List Diagnostic} {tokens : List Token}

/-- Tokens in front at which nothing is raised. -/
theorem append_left (earlier : List Token) (along : RaisedAlong diagnostics tokens) :
    RaisedAlong diagnostics (earlier ++ tokens) := by
  induction earlier with
  | nil => exact along
  | cons token earlier ih => exact .skip ih

/-- A diagnostic is raised at a token, and those after it behind that. -/
theorem split (along : RaisedAlong diagnostics tokens) :
    ∀ front diagnostic back, diagnostics = front ++ diagnostic :: back →
      ∃ before token behind, tokens = before ++ token :: behind ∧
        diagnostic = diagnostic.raisedAt token ∧ RaisedAlong back behind := by
  induction along with
  | done =>
    intro front diagnostic back parts
    exact absurd parts.symm (List.append_ne_nil_of_right_ne_nil _ (List.cons_ne_nil _ _))
  | @skip diagnostics token tokens _ ih =>
    intro front diagnostic back parts
    obtain ⟨before, other, behind, rfl, raised, along⟩ := ih front diagnostic back parts
    exact ⟨token :: before, other, behind, rfl, raised, along⟩
  | @raise first diagnostics token tokens raised others ih =>
    intro front diagnostic back parts
    cases front with
    | nil =>
      obtain ⟨rfl, rfl⟩ := List.cons.inj parts
      exact ⟨[], token, tokens, rfl, raised, others⟩
    | cons _ front =>
      obtain ⟨before, other, behind, rfl, raised', along⟩ :=
        ih front diagnostic back (List.cons.inj parts).2
      exact ⟨token :: before, other, behind, rfl, raised', along⟩

/-- Every diagnostic is raised at one of the tokens. -/
theorem exists_token (along : RaisedAlong diagnostics tokens) :
    ∀ diagnostic ∈ diagnostics, ∃ token ∈ tokens, diagnostic = diagnostic.raisedAt token := by
  intro diagnostic member
  obtain ⟨front, back, parts⟩ := List.append_of_mem member
  obtain ⟨before, token, behind, rfl, raised, _⟩ := along.split front diagnostic back parts
  exact ⟨token, List.mem_append_right _ List.mem_cons_self, raised⟩

/-- Diagnostics along tokens are ordered as the starts of these are. -/
theorem pairwise (along : RaisedAlong diagnostics tokens)
    (ordered : tokens.Pairwise fun first second => first.start.offset < second.start.offset) :
    diagnostics.Pairwise fun first second => first.position.offset < second.position.offset := by
  induction along with
  | done => exact .nil
  | skip _ ih => exact ih (List.pairwise_cons.mp ordered).2
  | @raise diagnostic diagnostics token tokens raised others ih =>
    obtain ⟨behind, ordered⟩ := List.pairwise_cons.mp ordered
    refine List.pairwise_cons.mpr ⟨fun second member => ?_, ih ordered⟩
    obtain ⟨next, inside, raised'⟩ := others.exists_token second member
    rw [congrArg Diagnostic.position raised, congrArg Diagnostic.position raised']
    exact behind next inside

end RaisedAlong

/-! ### Runs -/

namespace Run

/-- A turn that fails raises a diagnostic at a token before those at which the next turns do. -/
theorem raisedAlong_of_failed {state after : ParseState} {diagnostic : Diagnostic}
    {taken : List Token} {diagnostics : List Diagnostic} (takes : state.Takes taken after)
    (faults : Parser.Faults taken after diagnostic)
    (others : RaisedAlong diagnostics after.advance.upcoming)
    (ended : after.remaining = 0 → diagnostics = []) :
    RaisedAlong (diagnostic :: diagnostics) state.upcoming := by
  rw [takes.upcoming_eq]
  obtain ⟨skipped, onward⟩ := after.exists_takes_advance
  cases faults with
  | @current diagnostic here =>
    refine .append_left taken ?_
    have raised : diagnostic.raisedAt after.current =
        (diagnostic.raisedAt after.current).raisedAt after.current :=
      (Diagnostic.raisedAt_raisedAt _ _ _).symm
    rcases Nat.eq_zero_or_pos after.remaining with last | more
    · -- The last token is not skipped, but the run is over there.
      obtain rfl := ended last
      have front := after.head?_upcoming
      cases upcoming : after.upcoming with
      | nil => simp [upcoming] at front
      | cons token tokens =>
        rw [← ParseState.current_eq_of_upcoming upcoming]
        exact .raise raised .done
    · rw [ParseState.upcoming_of_remaining_pos more]
      exact .raise raised others
  | @number earlier token last kind =>
    subst last
    rw [onward.upcoming_eq, List.append_assoc]
    exact .append_left earlier (.raise rfl (others.append_left skipped))

/-- **The diagnostics of a run are raised along the tokens to come.** -/
theorem raisedAlong (grammar : Grammar) (state : ParseState) :
    RaisedAlong (Run.startingAt grammar state).diagnostics state.upcoming := by
  induction state using turns_induction grammar with
  | ended state ended =>
    rw [startingAt_of_eof ended]
    exact .done
  | separator state separates ih =>
    rw [startingAt_of_semicolon separates, ParseState.upcoming_of_ne_eof (by simp [separates])]
    exact .skip ih
  | completed state after item trace begins more reply ih =>
    obtain ⟨taken, takes⟩ := (Parser.item_walks grammar state).of_parsed reply
    rw [startingAt_of_parsed begins more reply, takes.upcoming_eq]
    exact ih.append_left taken
  | abandoned state after diagnostic trace begins more reply ih =>
    obtain ⟨taken, takes, faults⟩ := (Parser.item_walks grammar state).of_failed reply
    rw [startingAt_of_failed begins more reply]
    refine raisedAlong_of_failed takes faults ih fun last => ?_
    rw [(ParseState.advance_of_remaining_eq_zero last).1,
      startingAt_of_eof (ParseState.kind_of_remaining_eq_zero last)]
    rfl

end Run

/-! ### Tokens of a source -/

/-- Whether one token starts before another one, and does not end the text. -/
def Token.Precedes (token next : Token) : Prop :=
  token.kind ≠ .eof ∧ token.start.offset < next.start.offset

/-- **The tokens of a text start further and further to the right,** and only the last one ends it. -/
theorem Tiles.pairwise_precedes {name : String} {offset : Nat} {text : List Char}
    {tokens : List Token} (tiles : Tiles name offset text tokens)
    (fits : offset + Text.byteLength text < 2 ^ 32) :
    tokens.Pairwise Token.Precedes ∧
      ∀ token ∈ tokens, token.start.source = name ∧ offset ≤ token.start.offset.toNat := by
  induction tiles with
  | @last offset gap _ =>
    refine ⟨List.pairwise_singleton _ _, fun token member => ?_⟩
    obtain rfl := List.mem_singleton.mp member
    refine ⟨rfl, ?_⟩
    show offset ≤ (UInt32.ofNat (offset + Text.byteLength gap)).toNat
    rw [UInt32.toNat_ofNat_of_lt' fits]
    exact Nat.le_add_right _ _
  | @lexeme offset gap value rest kind others _ spells _ _ ih =>
    simp only [Text.byteLength_append] at fits
    obtain ⟨ordered, placed⟩ := ih (by omega)
    have start : (UInt32.ofNat (offset + Text.byteLength gap)).toNat =
        offset + Text.byteLength gap :=
      UInt32.toNat_ofNat_of_lt' (Nat.lt_of_le_of_lt (by omega) fits)
    have positive : 0 < Text.byteLength value := spells.byteLength_pos
    refine ⟨List.pairwise_cons.mpr ⟨fun next member => ⟨spells.ne_eof, ?_⟩, ordered⟩, ?_⟩
    · have behind := (placed next member).2
      show UInt32.ofNat (offset + Text.byteLength gap) < next.start.offset
      rw [UInt32.lt_iff_toNat_lt, start]
      omega
    · intro token member
      rcases List.mem_cons.mp member with rfl | further
      · refine ⟨rfl, ?_⟩
        show offset ≤ (UInt32.ofNat (offset + Text.byteLength gap)).toNat
        rw [start]
        exact Nat.le_add_right _ _
      · have behind := placed token further
        exact ⟨behind.1, by omega⟩

/-- The tokens of a source are all to come at the start of their run: the last one ends it. -/
theorem Tiles.upcoming_ofTokens {name : String} {offset : Nat} {text : List Char}
    {tokens : List Token} (tiles : Tiles name offset text tokens) :
    (ParseState.ofTokens tokens).upcoming = tokens := by
  obtain ⟨lexemes, position, rfl⟩ :
      ∃ lexemes position, tokens = lexemes ++ [Token.atEnd position] := by
    induction tiles with
    | last _ => exact ⟨[], _, rfl⟩
    | lexeme _ _ _ _ ih =>
      obtain ⟨lexemes, position, rfl⟩ := ih
      exact ⟨_ :: lexemes, position, rfl⟩
  rw [ParseState.ofTokens_append_eof rfl]
  rfl

namespace Run

/-- **The positions of the diagnostics of a run strictly increase.** In the run of the tokens of a source,
every diagnostic stands where one of these tokens starts, in the source's name, and quotes its value. If
that token is the end, no diagnostic comes after. -/
theorem diagnostics_increase (table : PrecedenceTable) {source : Source} {tokens : List Token}
    (fits : source.text.utf8ByteSize < 2 ^ 32) (lexed : Token.tokenize source = .ok tokens) :
    let diagnostics := (Run.ofTokens (.ofTable table) tokens).diagnostics
    diagnostics.Pairwise (fun first second => first.position.offset < second.position.offset) ∧
    ∀ front diagnostic back, diagnostics = front ++ diagnostic :: back →
      ∃ token ∈ tokens, diagnostic.position = token.start ∧
        diagnostic.cause.quotes = token.value ∧ diagnostic.position.source = source.name ∧
        (token.kind = .eof → back = []) := by
  intro diagnostics
  have tiles := tiles_of_tokenize lexed
  rw [← Text.byteLength_toList, ← Nat.zero_add (Text.byteLength _)] at fits
  obtain ⟨ordered, placed⟩ := tiles.pairwise_precedes fits
  have along : RaisedAlong diagnostics tokens := by
    have along := Run.raisedAlong (.ofTable table) (ParseState.ofTokens tokens)
    rw [tiles.upcoming_ofTokens] at along
    exact along
  constructor
  · exact along.pairwise (ordered.imp fun precedes => precedes.2)
  · intro front diagnostic back parts
    obtain ⟨before, token, behind, rfl, raised, others⟩ := along.split front diagnostic back parts
    have member : token ∈ before ++ token :: behind :=
      List.mem_append_right _ List.mem_cons_self
    have position : diagnostic.position = token.start := congrArg Diagnostic.position raised
    refine ⟨token, member, position, ?_, ?_, fun ends => ?_⟩
    · rw [raised]
      exact diagnostic.quotes_raisedAt token
    · rw [position]
      exact (placed token member).1
    · cases back with
      | nil => rfl
      | cons second back =>
        obtain ⟨next, inside, _⟩ := others.exists_token second List.mem_cons_self
        have precedes := List.pairwise_cons.mp (List.pairwise_append.mp ordered).2.1
        exact absurd ends (precedes.1 next inside).1

/-- A parenthesis that closes nothing, and a group in which the source ends. -/
def unbalanced : Source := ⟨")\n(", "groups.k"⟩

theorem diagnostics_increase_unbalanced :
    ∃ tokens first second, Token.tokenize unbalanced = .ok tokens ∧
      (Run.ofTokens (.ofTable .empty) tokens).diagnostics = [first, second] ∧
      first.position.offset < second.position.offset ∧ first.cause.quotes = ")" ∧
      second.cause.quotes = "EOF" := by
  have pieces : Lexeme.pieces unbalanced.text.toList =
      ([⟨.closeParen, [')']⟩, ⟨.blank, ['\n']⟩, ⟨.openParen, ['(']⟩], []) := by cbv
  let tokens : List Token := [⟨.closeParen, ")", .ofNat 0 1 "groups.k"⟩,
    ⟨.openParen, "(", .ofNat 2 1 "groups.k"⟩, .atEnd (.ofNat 3 "groups.k")]
  have lexed : Token.tokenize unbalanced = .ok tokens := by
    rw [tokenize_of_pieces pieces]
    rfl
  let start := ParseState.ofTokens tokens
  have noGroup : Parser.item (.ofTable .empty) start =
      .failed ⟨.noExpression ")", .ofNat 0 "groups.k"⟩ start [.descend start] := by cbv
  have noRest : Parser.item (.ofTable .empty) start.advance =
      .failed ⟨.noExpression "EOF", .ofNat 3 "groups.k"⟩ start.advance.advance
        [.descend start.advance, .descend start.advance.advance.deeper] := by cbv
  have run : Run.ofTokens (.ofTable .empty) tokens = _ :=
    startingAt_of_failed (by decide) (by decide) noGroup
  rw [startingAt_of_failed (by decide) (by decide) noRest, startingAt_of_eof rfl] at run
  have reported : (Run.ofTokens (.ofTable .empty) tokens).diagnostics =
      [⟨.noExpression ")", .ofNat 0 "groups.k"⟩, ⟨.noExpression "EOF", .ofNat 3 "groups.k"⟩] := by
    rw [run]
    rfl
  obtain ⟨increase, _⟩ := diagnostics_increase .empty (by decide) lexed
  rw [reported] at increase
  exact ⟨_, _, _, lexed, reported, List.rel_of_pairwise_cons increase List.mem_cons_self, rfl, rfl⟩

end Run

end OpLang
