/-
**Programs written as tokens, and read back.**

`RendersProgram table items tokens` says that some tokens write the items one after the other:
definitions and external declarations with their keywords, and expressions on their own, which are
the bodies of anonymous functions. Semicolons may stand anywhere between the items, before them and
after them, and one must where an expression follows an item that ends in an expression.

* `item_of_renders`: a written item is read back by `item`, provided that what follows does not go on
  with it.
* `startingAt_of_renders`: from a state where a written program is to come, a run completes its items
  and reports nothing, by induction over the writing.
* `ofTokens_of_rendersProgram`: so the run of a written program gives back the items.
-/

import OpLang.Proofs.Expr.Rendering
import OpLang.Proofs.Item.Yields
import OpLang.Proofs.Program.Turns

namespace OpLang

variable {table : PrecedenceTable}

/-! ### Writing programs -/

/-- Whether some tokens write parameters, at least one, and the parenthesis that closes them. -/
inductive RendersParameters : List String → List Token → Prop where
  | last {name closing : Token} (kind : name.kind = .identifier)
      (closes : closing.kind = .closeParen) : RendersParameters [name.value] [name, closing]
  | more {name comma : Token} {others : List String} {tokens : List Token}
      (kind : name.kind = .identifier) (goesOn : comma.kind = .comma)
      (further : RendersParameters others tokens) :
      RendersParameters (name.value :: others) (name :: comma :: tokens)

/-- Whether some tokens write a prototype. -/
inductive RendersPrototype : Prototype → List Token → Prop where
  | bare {name opening closing : Token} (kind : name.kind = .identifier)
      (opens : opening.kind = .openParen) (closes : closing.kind = .closeParen) :
      RendersPrototype ⟨name.value, []⟩ [name, opening, closing]
  | withParameters {name opening : Token} {names : List String} {tokens : List Token}
      (kind : name.kind = .identifier) (opens : opening.kind = .openParen)
      (parameters : RendersParameters names tokens) :
      RendersPrototype ⟨name.value, names⟩ (name :: opening :: tokens)

/-- Whether some tokens write an item; in its body at most 256 expressions are open at once. -/
inductive RendersItem (table : PrecedenceTable) : Item → List Token → Prop where
  | definition {keyword : Token} {signature : Prototype} {body : Expr} {tokens others : List Token}
      (kind : keyword.kind = .defKeyword) (named : RendersPrototype signature tokens)
      (onBody : Renders table (.expression body) 256 others) :
      RendersItem table (.definition ⟨signature, body⟩) (keyword :: (tokens ++ others))
  | external {keyword : Token} {signature : Prototype} {tokens : List Token}
      (kind : keyword.kind = .externKeyword) (named : RendersPrototype signature tokens) :
      RendersItem table (.external signature) (keyword :: tokens)
  | expression {body : Expr} {tokens : List Token}
      (onBody : Renders table (.expression body) 256 tokens) :
      RendersItem table (.expression ⟨.anonymous, body⟩) tokens

/-- Whether some tokens write items, with semicolons around them. -/
inductive RendersProgram (table : PrecedenceTable) : List Item → List Token → Prop where
  | nothing : RendersProgram table [] []
  | separator {semicolon : Token} {items : List Item} {tokens : List Token}
      (kind : semicolon.kind = .semicolon) (rest : RendersProgram table items tokens) :
      RendersProgram table items (semicolon :: tokens)
  | item {first : Item} {items : List Item} {tokens others : List Token}
      (onFirst : RendersItem table first tokens) (rest : RendersProgram table items others)
      (apart : first.event ≠ .external → items.head?.map Item.event = some .expression →
        ∀ next ∈ others.head?, next.kind = .semicolon) :
      RendersProgram table (first :: items) (tokens ++ others)

/-! ### No ends are written -/

theorem RendersParameters.kind_ne_eof {names : List String} {tokens : List Token}
    (renders : RendersParameters names tokens) : ∀ token ∈ tokens, token.kind ≠ .eof := by
  induction renders with
  | last kind closes => simp [kind, closes]
  | more kind goesOn _ ih => simpa [kind, goesOn] using ih

theorem RendersPrototype.kind_ne_eof {signature : Prototype} {tokens : List Token}
    (renders : RendersPrototype signature tokens) : ∀ token ∈ tokens, token.kind ≠ .eof := by
  cases renders with
  | bare kind opens closes => simp [kind, opens, closes]
  | withParameters kind opens parameters => simpa [kind, opens] using parameters.kind_ne_eof

theorem RendersItem.kind_ne_eof {item : Item} {tokens : List Token}
    (renders : RendersItem table item tokens) : ∀ token ∈ tokens, token.kind ≠ .eof := by
  cases renders with
  | definition kind named onBody =>
    simpa [kind, or_imp, forall_and] using ⟨named.kind_ne_eof, onBody.kind_ne_eof⟩
  | external kind named => simpa [kind] using named.kind_ne_eof
  | expression onBody => exact onBody.kind_ne_eof

theorem RendersProgram.kind_ne_eof {items : List Item} {tokens : List Token}
    (renders : RendersProgram table items tokens) : ∀ token ∈ tokens, token.kind ≠ .eof := by
  induction renders with
  | nothing => simp
  | separator kind _ ih => simpa [kind] using ih
  | item onFirst _ _ ih => simpa [or_imp, forall_and] using ⟨onFirst.kind_ne_eof, ih⟩

namespace Parser

/-! ### What follows an item -/

/-- Whether some tokens begin with one that ends whatever expression stands before it. -/
def EndsExpression (tokens : List Token) : Prop :=
  ∀ next ∈ tokens.head?, next.kind = .semicolon ∨ next.kind = .defKeyword ∨
    next.kind = .externKeyword ∨ next.kind = .eof

theorem EndsExpression.noCall {tokens : List Token} (ends : EndsExpression tokens) :
    NoCall tokens := by
  intro next head
  rcases ends next head with kind | kind | kind | kind <;> simp [kind]

theorem EndsExpression.noOperator {tokens : List Token} (ends : EndsExpression tokens) :
    NoOperator table tokens := by
  intro next head precedence joins
  rcases ends next head with kind | kind | kind | kind <;> simp [joins.1] at kind

/-- What is written after an item ends its expression, if a semicolon stands before another
expression. -/
theorem endsExpression_of_renders {items : List Item} {tokens : List Token} {ending : Token}
    (renders : RendersProgram table items tokens) (ended : ending.kind = .eof)
    (apart : items.head?.map Item.event = some .expression →
      ∀ next ∈ tokens.head?, next.kind = .semicolon) :
    EndsExpression (tokens ++ [ending]) := by
  intro next head
  cases renders with
  | nothing =>
    obtain rfl := Option.some.inj head
    exact Or.inr (Or.inr (Or.inr ended))
  | separator kind _ =>
    obtain rfl := Option.some.inj head
    exact Or.inl kind
  | @item _ _ tokens others onFirst _ _ =>
    cases onFirst with
    | definition kind _ _ =>
      obtain rfl := Option.some.inj head
      exact Or.inr (Or.inl kind)
    | external kind _ =>
      obtain rfl := Option.some.inj head
      exact Or.inr (Or.inr (Or.inl kind))
    | expression _ =>
      cases all : tokens ++ others with
      | nil =>
        rw [all] at head
        obtain rfl := Option.some.inj head
        exact Or.inr (Or.inr (Or.inr ended))
      | cons first more =>
        rw [all] at head apart
        obtain rfl := Option.some.inj head
        exact Or.inl (apart rfl first rfl)

/-! ### Reading back -/

theorem parameters_of_renders {names : List String} {tokens : List Token}
    (renders : RendersParameters names tokens) :
    ∀ (state : ParseState) (rest : List Token), state.upcoming = tokens ++ rest →
      state.current.kind ≠ .closeParen ∧
        ∃ after, parameters.Yields state names after ∧ after.upcoming = rest := by
  induction renders with
  | last kind closes =>
    intro state rest upcoming
    obtain ⟨rfl, behind⟩ := ParseState.upcoming_advance upcoming (by simp [kind])
    obtain ⟨rfl, after⟩ := ParseState.upcoming_advance behind (by simp [closes])
    refine ⟨by simp [kind], _, ?_, after⟩
    exact yields_parameters.mpr ⟨kind, Or.inl ⟨closes, rfl, rfl⟩⟩
  | more kind goesOn _ ih =>
    intro state rest upcoming
    obtain ⟨rfl, behind⟩ := ParseState.upcoming_advance upcoming (by simp [kind])
    obtain ⟨rfl, inside⟩ := ParseState.upcoming_advance behind (by simp [goesOn])
    obtain ⟨_, after, yields, afterUpcoming⟩ := ih _ rest inside
    refine ⟨by simp [kind], after, ?_, afterUpcoming⟩
    exact yields_parameters.mpr ⟨kind, Or.inr ⟨goesOn, _, yields, rfl⟩⟩

theorem prototype_of_renders {signature : Prototype} {tokens : List Token}
    (renders : RendersPrototype signature tokens) {state : ParseState} {rest : List Token}
    (upcoming : state.upcoming = tokens ++ rest) :
    ∃ after, prototype.Yields state signature after ∧ after.upcoming = rest := by
  cases renders with
  | bare kind opens closes =>
    obtain ⟨rfl, behind⟩ := ParseState.upcoming_advance upcoming (by simp [kind])
    obtain ⟨rfl, inside⟩ := ParseState.upcoming_advance behind (by simp [opens])
    obtain ⟨rfl, after⟩ := ParseState.upcoming_advance inside (by simp [closes])
    exact ⟨_, yields_prototype.mpr ⟨kind, opens, Or.inl ⟨closes, rfl, rfl⟩⟩, after⟩
  | withParameters kind opens parameters =>
    obtain ⟨rfl, behind⟩ := ParseState.upcoming_advance upcoming (by simp [kind])
    obtain ⟨rfl, inside⟩ := ParseState.upcoming_advance behind (by simp [opens])
    obtain ⟨someGiven, after, yields, afterUpcoming⟩ :=
      parameters_of_renders parameters _ rest inside
    refine ⟨after, ?_, afterUpcoming⟩
    exact yields_prototype.mpr ⟨kind, opens, Or.inr ⟨someGiven, _, yields, rfl⟩⟩

/-- **A written item is read back,** where what follows ends its expression. -/
theorem item_of_renders {first : Item} {tokens : List Token}
    (renders : RendersItem table first tokens) {state : ParseState} {rest : List Token}
    (outermost : state.depth = 0) (upcoming : state.upcoming = tokens ++ rest)
    (ends : first.event ≠ .external → EndsExpression rest) :
    state.current.kind ≠ .semicolon ∧ state.current.kind ≠ .eof ∧
      ∃ after, (item (.ofTable table)).Yields state first after ∧ after.upcoming = rest := by
  cases renders with
  | @definition _ signature body tokens others kind named onBody =>
    rw [List.cons_append, List.append_assoc] at upcoming
    obtain ⟨rfl, behind⟩ := ParseState.upcoming_advance upcoming (by simp [kind])
    obtain ⟨middle, yieldsNamed, middleUpcoming⟩ := prototype_of_renders named behind
    have depth : middle.depth = state.advance.depth :=
      (prototype_keepsDepth state.advance).of_yields yieldsNamed
    rw [ParseState.depth_advance] at depth
    have ends : EndsExpression rest := ends nofun
    obtain ⟨after, yields, afterUpcoming⟩ :=
      readBack_of_renders onBody middle rest middleUpcoming (by omega) ends.noCall ends.noOperator
    refine ⟨by simp [kind], by simp [kind], after, ?_, afterUpcoming⟩
    exact yields_item.mpr (Or.inl ⟨kind, signature, middle, body, yieldsNamed, yields, rfl⟩)
  | external kind named =>
    obtain ⟨rfl, behind⟩ := ParseState.upcoming_advance upcoming (by simp [kind])
    obtain ⟨after, yields, afterUpcoming⟩ := prototype_of_renders named behind
    refine ⟨by simp [kind], by simp [kind], after, ?_, afterUpcoming⟩
    exact yields_item.mpr (Or.inr (Or.inl ⟨kind, _, yields, rfl⟩))
  | @expression body tokens onBody =>
    have ends : EndsExpression rest := ends nofun
    obtain ⟨after, yields, afterUpcoming⟩ :=
      readBack_of_renders onBody state rest upcoming (by omega) ends.noCall ends.noOperator
    have kind := kind_of_yields_expr yields
    refine ⟨?_, ?_, after, ?_, afterUpcoming⟩
    · rcases kind with kind | kind | kind <;> simp [kind]
    · rcases kind with kind | kind | kind <;> simp [kind]
    · refine yields_item.mpr (Or.inr (Or.inr ⟨?_, ?_, body, yields, rfl⟩))
      · rcases kind with kind | kind | kind <;> simp [kind]
      · rcases kind with kind | kind | kind <;> simp [kind]

end Parser

namespace Run

open OpLang.Parser

/-- **A run over a written program** completes its items and reports nothing. -/
theorem startingAt_of_renders {items : List Item} {tokens : List Token} {ending : Token}
    (renders : RendersProgram table items tokens) (ended : ending.kind = .eof)
    {state : ParseState} (outermost : state.depth = 0)
    (upcoming : state.upcoming = tokens ++ [ending]) :
    (Run.startingAt (.ofTable table) state).items = items ∧
      (Run.startingAt (.ofTable table) state).diagnostics = [] := by
  induction renders generalizing state with
  | nothing =>
    have current := ParseState.current_eq_of_upcoming upcoming
    rw [startingAt_of_eof (by rw [current]; exact ended)]
    exact ⟨rfl, rfl⟩
  | separator kind _ ih =>
    obtain ⟨rfl, behind⟩ := ParseState.upcoming_advance upcoming (by simp [kind])
    rw [startingAt_of_semicolon kind]
    exact ih outermost behind
  | @item first items tokens others onFirst rest apart ih =>
    rw [List.append_assoc] at upcoming
    obtain ⟨begins, more, after, yields, afterUpcoming⟩ :=
      item_of_renders onFirst outermost upcoming
        fun inner => endsExpression_of_renders rest ended (apart inner)
    have depth := (item_keepsDepth (.ofTable table) state).of_yields yields
    obtain ⟨trace, reply⟩ := yields
    obtain ⟨itemsAfter, diagnosticsAfter⟩ := ih (depth.trans outermost) afterUpcoming
    rw [startingAt_of_parsed begins more reply]
    exact ⟨congrArg (first :: ·) itemsAfter, diagnosticsAfter⟩

/-- **Parsing undoes writing.** The run of tokens that write a program, with an end after them or
without one, gives back exactly the items, in order, announces each of them and reports nothing. -/
theorem ofTokens_of_rendersProgram (table : PrecedenceTable) (items : List Item)
    (tokens : List Token) (ending : Option Token) (renders : RendersProgram table items tokens)
    (ends : ∀ token ∈ ending, token.kind = .eof) :
    let run := Run.ofTokens (.ofTable table) (tokens ++ ending.toList)
    run.items = items ∧ run.diagnostics = [] ∧ run.announced = items.map Item.event := by
  intro run
  have started : ∃ last, last.kind = .eof ∧
      (ParseState.ofTokens (tokens ++ ending.toList)).depth = 0 ∧
      (ParseState.ofTokens (tokens ++ ending.toList)).upcoming = tokens ++ [last] := by
    cases ending with
    | none =>
      obtain ⟨last, ended, start⟩ := ParseState.ofTokens_of_getLast? fun token final =>
        renders.kind_ne_eof token (List.mem_of_getLast? final)
      rw [Option.toList_none, List.append_nil, start]
      exact ⟨last, ended, rfl, rfl⟩
    | some token =>
      rw [Option.toList_some, ParseState.ofTokens_append_eof (ends token rfl)]
      exact ⟨token, ends token rfl, rfl, rfl⟩
  obtain ⟨last, ended, outermost, upcoming⟩ := started
  obtain ⟨sameItems, clean⟩ := startingAt_of_renders renders ended outermost upcoming
  refine ⟨sameItems, clean, ?_⟩
  rw [announced_eq_events, events, show run.items = items from sameItems]

/-- The tokens of `x * (x + 1)`. -/
def multipleTokens : List Token :=
  [.unplaced .identifier "x", .unplaced .operator "*", .unplaced .openParen "(",
    .unplaced .identifier "x", .unplaced .operator "+", .unplaced .number "1",
    .unplaced .closeParen ")"]

/-- The tokens of `def f(x) x * (x + 1); f(2) extern g()`. -/
def programTokens : List Token :=
  [.unplaced .defKeyword "def", .unplaced .identifier "f", .unplaced .openParen "(",
    .unplaced .identifier "x", .unplaced .closeParen ")"] ++ multipleTokens ++
  [.unplaced .semicolon ";", .unplaced .identifier "f", .unplaced .openParen "(",
    .unplaced .number "2", .unplaced .closeParen ")", .unplaced .externKeyword "extern",
    .unplaced .identifier "g", .unplaced .openParen "(", .unplaced .closeParen ")"]

/-- `def f(x) x * (x + 1); f(2) extern g()` is read as the three items that it writes. -/
theorem ofTokens_of_rendersProgram_programTokens :
    let items : List Item :=
      [.definition ⟨⟨"f", ["x"]⟩, .binary "*" (.reference "x")
          (.binary "+" (.reference "x") (.number (.ofDecimal false 1 0)))⟩,
        .expression ⟨.anonymous, .call "f" [.number (.ofDecimal false 2 0)]⟩,
        .external ⟨"g", []⟩]
    let run := Run.ofTokens (.ofTable .standard) programTokens
    RendersProgram .standard items programTokens ∧ run.items = items ∧ run.diagnostics = [] ∧
      run.announced = [.definition, .expression, .external] := by
  intro items run
  have plus : PrecedenceTable.standard.Joins (.unplaced .operator "+") 20 := ⟨rfl, rfl⟩
  have times : PrecedenceTable.standard.Joins (.unplaced .operator "*") 40 := ⟨rfl, rfl⟩
  have x (room : Nat) : Renders .standard (.operand (.reference "x")) room
      [.unplaced .identifier "x"] :=
    @Renders.reference _ _ (.unplaced .identifier "x") rfl
  have one : Renders .standard (.operand (.number (.ofDecimal false 1 0))) 254
      [.unplaced .number "1"] :=
    .number rfl rfl
  have two : Renders .standard (.operand (.number (.ofDecimal false 2 0))) 254
      [.unplaced .number "2"] :=
    .number rfl rfl
  have sum := Renders.expression (.binary plus (Nat.zero_le _) (.alone (x 254)) (.alone one))
  have group := @Renders.group _ _ (.unplaced .openParen "(") (.unplaced .closeParen ")") _ _ rfl
    sum rfl
  have product := Renders.expression (.binary times (Nat.zero_le _) (.alone (x 255)) (.alone group))
  have given := @Renders.lastArgument _ _ (.unplaced .closeParen ")") _ _
    (.expression (.alone two)) rfl
  have call := @Renders.call _ _ (.unplaced .identifier "f") (.unplaced .openParen "(") _ _ rfl rfl
    given
  have f := @RendersPrototype.withParameters (.unplaced .identifier "f")
    (.unplaced .openParen "(") _ _ rfl rfl
    (@RendersParameters.last (.unplaced .identifier "x") (.unplaced .closeParen ")") rfl rfl)
  have g := @RendersPrototype.bare (.unplaced .identifier "g") (.unplaced .openParen "(")
    (.unplaced .closeParen ")") rfl rfl rfl
  have declared := RendersProgram.item
    (@RendersItem.external .standard (.unplaced .externKeyword "extern") _ _ rfl g) .nothing
    (fun _ => nofun)
  have called := RendersProgram.item (.expression (.expression (.alone call))) declared
    (fun _ => nofun)
  have renders : RendersProgram .standard items programTokens := by
    refine RendersProgram.item
      (@RendersItem.definition _ (.unplaced .defKeyword "def") _ _ _ _ rfl f product)
      (@RendersProgram.separator _ (.unplaced .semicolon ";") _ _ rfl called) ?_
    intro _ _ next head
    obtain rfl := Option.some.inj head
    rfl
  exact ⟨renders, ofTokens_of_rendersProgram .standard items programTokens none renders nofun⟩

end Run

end OpLang
