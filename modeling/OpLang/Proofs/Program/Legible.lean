/-
**Items are legible.**

A prototype is written as a name and references to its parameters would be, so it is read in one way as
expressions are (`Prototype.write_inj`), and with it every item is. A definition and an expression on its
own have one form, but only the anonymous prototype begins with no letter.

Whatever sources and tables two items come from: if their numbers are finite and their texts are equal,
they are the same item (`Run.item_eq_of_text_eq`).
-/

import OpLang.Item.Printer
import OpLang.Proofs.Expr.Legible
import OpLang.Proofs.Program.Rendering
import OpLang.Proofs.Program.WellFormed

namespace OpLang

variable {table table' : PrecedenceTable} {rest rest' : List Char}

/-! ### Finite numbers -/

/-- Whether all numbers of a tree are finite. -/
inductive Expr.IsFinite : Expr → Prop where
  | number {value : Binary64} (finite : value.IsFinite) : IsFinite (.number value)
  | reference {name : String} : IsFinite (.reference name)
  | binary {operator : String} {left right : Expr} (onLeft : IsFinite left)
      (onRight : IsFinite right) : IsFinite (.binary operator left right)
  | call {callee : String} {arguments : List Expr}
      (onArguments : ∀ argument ∈ arguments, IsFinite argument) : IsFinite (.call callee arguments)

/-- Whether all numbers of an item are finite. -/
def Item.IsFinite (item : Item) : Prop := ∀ body ∈ item.body?, body.IsFinite

namespace Expr.IsWellFormed

/-- **A well-formed tree without infinite numbers is legible.** -/
theorem isLegible {tree : Expr} (wellFormed : tree.IsWellFormed table) (finite : tree.IsFinite) :
    tree.IsLegible := by
  induction wellFormed with
  | number nonnegative =>
    cases finite with
    | number finite => exact .number (nonnegative.isNumeral_text finite)
  | reference isName => exact .reference isName
  | binary isOperator _ _ ihLeft ihRight =>
    cases finite with
    | binary onLeft onRight => exact .binary isOperator.spells (ihLeft onLeft) (ihRight onRight)
  | call isName _ ih =>
    cases finite with
    | call onArguments =>
      exact .call isName fun argument member => ih argument member (onArguments argument member)

/-- A well-formed tree agrees with itself: none of its numbers is not a number. -/
theorem sameValue_self {tree : Expr} (wellFormed : tree.IsWellFormed table) :
    tree.sameValue tree = true := by
  induction wellFormed with
  | number nonnegative =>
    cases nonnegative
    exact Binary64.numericEq_self nofun
  | reference _ => simp [sameValue]
  | binary _ _ _ ihLeft ihRight => simp [sameValue, ihLeft, ihRight]
  | @call callee arguments _ _ ih =>
    have onArguments : sameValues arguments arguments = true := by
      clear * - ih
      induction arguments with
      | nil => simp [sameValues]
      | cons first others ihOthers =>
        obtain ⟨onFirst, onOthers⟩ := List.forall_mem_cons.mp ih
        simp [sameValues, onFirst, ihOthers onOthers]
    simp [sameValue, onArguments]

end Expr.IsWellFormed

theorem Item.IsWellFormed.sameValue_self {item : Item} (wellFormed : item.IsWellFormed table) :
    item.sameValue item = true := by
  cases wellFormed with
  | definition _ onBody => simp [sameValue, Function.sameValue, onBody.sameValue_self]
  | external _ => simp [sameValue]
  | expression onBody => simp [sameValue, Function.sameValue, onBody.sameValue_self]

/-! ### Prototypes -/

/-- Whether the name of a prototype is one piece of a text, and its parameters are names. -/
structure Prototype.IsLegible (signature : Prototype) : Prop where
  isAtom : IsAtom signature.name.toList
  isParameter : ∀ parameter ∈ signature.parameters, IsName parameter

theorem Prototype.IsWellFormed.isLegible {signature : Prototype} (named : signature.IsWellFormed) :
    signature.IsLegible :=
  ⟨named.isName.isAtom, named.isParameter⟩

theorem Prototype.isLegible_anonymous : Prototype.anonymous.IsLegible :=
  ⟨⟨by decide, List.all_eq_true.mp (by decide)⟩, nofun⟩

namespace Prototype

/-- The parameters are written as references to them would be. -/
theorem write_eq (signature : Prototype) (rest : List Char) :
    signature.write rest = '(' :: (signature.name.toList ++
      Expr.writeArguments (signature.parameters.map .reference) (')' :: rest)) := by
  have onParameters : ∀ parameters : List String,
      (parameters.flatMap fun parameter => ' ' :: parameter.toList) ++ ')' :: rest =
        Expr.writeArguments (parameters.map .reference) (')' :: rest) := by
    intro parameters
    induction parameters with
    | nil => rfl
    | cons parameter others ih =>
      rw [List.flatMap_cons, List.append_assoc, ih]
      rfl
  rw [write, List.append_assoc, onParameters]

/-- **Prototypes are read in one way.** -/
theorem write_inj {signature other : Prototype} (legible : signature.IsLegible)
    (legible' : other.IsLegible) (same : signature.write rest = other.write rest') :
    signature = other ∧ rest = rest' := by
  rw [write_eq, write_eq] at same
  have references {names : List String} (areNames : ∀ name ∈ names, IsName name) :
      ∀ tree ∈ names.map Expr.reference, tree.IsLegible :=
    List.forall_mem_map.mpr fun name member => .reference (areNames name member)
  obtain ⟨name, behind⟩ := legible.isAtom.append_inj legible'.isAtom
    (Expr.endsAtom_writeArguments _ rest) (Expr.endsAtom_writeArguments _ rest') (List.cons.inj same).2
  obtain ⟨parameters, rfl⟩ := Expr.writeArguments_inj _ (references legible.isParameter)
    (references legible'.isParameter) behind
  obtain ⟨name', parameters'⟩ := signature
  refine ⟨?_, rfl⟩
  rw [Prototype.mk.injEq]
  refine ⟨String.toList_inj.mp name, ?_⟩
  exact List.map_injective_iff.mpr (fun _ _ => Expr.reference.inj) parameters

end Prototype

/-! ### Functions -/

namespace Function

/-- Whether the prototype and the body of a function are legible. -/
structure IsLegible (function : Function) : Prop where
  named : function.prototype.IsLegible
  onBody : function.body.IsLegible

/-- **Functions are read in one way.** -/
theorem write_inj {function other : Function} (legible : function.IsLegible)
    (legible' : other.IsLegible) (same : function.write rest = other.write rest') :
    function = other ∧ rest = rest' := by
  unfold write at same
  obtain ⟨signature, behind⟩ :=
    Prototype.write_inj legible.named legible'.named (List.append_cancel_left same)
  obtain ⟨body, closing⟩ := Expr.write_inj _ legible.onBody legible'.onBody (endsAtom_cons rfl _)
    (endsAtom_cons rfl _) (List.cons.inj behind).2
  obtain ⟨signature', body'⟩ := function
  refine ⟨?_, (List.cons.inj closing).2⟩
  rw [Function.mk.injEq]
  exact ⟨signature, body⟩

/-- No function is taken for an external declaration. -/
theorem write_ne_external (function : Function) (signature : Prototype) :
    function.write rest ≠ (Item.external signature).write rest' := by
  have afterOpening : function.write rest = '(' :: 'd' :: ("ef ".toList ++
      function.prototype.write (' ' :: function.body.write (')' :: rest))) := rfl
  have afterOpening' : (Item.external signature).write rest' =
      '(' :: 'e' :: ("xtern ".toList ++ signature.write (')' :: rest')) := rfl
  rw [afterOpening, afterOpening']
  intro same
  exact absurd (List.cons.inj (List.cons.inj same).2).1 (by decide)

/-- The item around a function: an expression on its own if its prototype is the anonymous one. -/
def toItem (function : Function) : Item :=
  if function.prototype.isAnonymous then .expression function else .definition function

/-- Definitions and expressions on their own have one form. -/
theorem write_toItem (function : Function) : function.toItem.write rest = function.write rest := by
  unfold toItem
  split <;> rfl

end Function

/-! ### Items -/

namespace Item

/-- A well-formed item is an external declaration, or the item around a function. -/
theorem IsWellFormed.external_or_function {item : Item} (wellFormed : item.IsWellFormed table)
    (finite : item.IsFinite) :
    (∃ signature : Prototype, item = .external signature ∧ signature.IsLegible) ∨
      ∃ function : Function, item = function.toItem ∧ function.IsLegible := by
  cases wellFormed with
  | @definition signature body named onBody =>
    refine .inr ⟨⟨signature, body⟩, ?_, named.isLegible, onBody.isLegible (finite body rfl)⟩
    rw [Function.toItem, if_neg (by simp [named.isAnonymous_eq])]
  | external named => exact .inl ⟨_, rfl, named.isLegible⟩
  | @expression body onBody =>
    exact .inr ⟨⟨.anonymous, body⟩, rfl, Prototype.isLegible_anonymous,
      onBody.isLegible (finite body rfl)⟩

/-- **Items are read in one way.** -/
theorem IsWellFormed.eq_of_text_eq {item other : Item} (wellFormed : item.IsWellFormed table)
    (wellFormed' : other.IsWellFormed table') (finite : item.IsFinite) (finite' : other.IsFinite)
    (same : item.text = other.text) : item = other := by
  have same : item.write [] = other.write [] := String.ofList_inj.mp same
  obtain ⟨signature, rfl, legible⟩ | ⟨function, rfl, legible⟩ :=
      wellFormed.external_or_function finite <;>
    obtain ⟨signature', rfl, legible'⟩ | ⟨function', rfl, legible'⟩ :=
      wellFormed'.external_or_function finite'
  · obtain ⟨rfl, -⟩ := Prototype.write_inj legible legible' (List.append_cancel_left same)
    rfl
  · rw [function'.write_toItem] at same
    exact absurd same.symm (function'.write_ne_external signature)
  · rw [function.write_toItem] at same
    exact absurd same (function.write_ne_external signature')
  · rw [function.write_toItem, function'.write_toItem] at same
    obtain ⟨rfl, -⟩ := Function.write_inj legible legible' same
    rfl

end Item

namespace Run

/-- **The text of an item tells which item it is.** Of all items without infinite numbers, from whatever
sources and with whatever tables they are parsed, only equal ones have the same text; and being equal,
they are of the same value. -/
theorem item_eq_of_text_eq {source source' : Source} {tokens tokens' : List Token} {item item' : Item}
    (lexed : Token.tokenize source = .ok tokens) (lexed' : Token.tokenize source' = .ok tokens')
    (parsed : item ∈ (Run.ofTokens (.ofTable table) tokens).items)
    (parsed' : item' ∈ (Run.ofTokens (.ofTable table') tokens').items)
    (finite : item.IsFinite) (finite' : item'.IsFinite) (same : item.text = item'.text) :
    item = item' ∧ item.sameValue item' = true := by
  have wellFormed : item.IsWellFormed table :=
    (startingAt_isWellFormed table (ParseState.isSpelled_of_tokenize lexed)).1 item parsed
  have wellFormed' : item'.IsWellFormed table' :=
    (startingAt_isWellFormed table' (ParseState.isSpelled_of_tokenize lexed')).1 item' parsed'
  obtain rfl := wellFormed.eq_of_text_eq wellFormed' finite finite' same
  exact ⟨rfl, wellFormed.sameValue_self⟩

/-- Half of a variable. -/
def tight : Source := ⟨"x*.5", "tight.k"⟩

/-- The same product, written with more. -/
def wide : Source := ⟨"(x) * 0.50", "wide.k"⟩

/-- The tokens of `tight` before the end. -/
def tightTokens : List Token :=
  [⟨.identifier, "x", .ofNat 0 1 "tight.k"⟩, ⟨.operator, "*", .ofNat 1 1 "tight.k"⟩,
    ⟨.number, ".5", .ofNat 2 2 "tight.k"⟩]

/-- The tokens of `wide` before the end. -/
def wideTokens : List Token :=
  [⟨.openParen, "(", .ofNat 0 1 "wide.k"⟩, ⟨.identifier, "x", .ofNat 1 1 "wide.k"⟩,
    ⟨.closeParen, ")", .ofNat 2 1 "wide.k"⟩, ⟨.operator, "*", .ofNat 4 1 "wide.k"⟩,
    ⟨.number, "0.50", .ofNat 6 4 "wide.k"⟩]

/-- The product of a variable and a number, as an item. -/
def product (number : Binary64) : Item :=
  .expression ⟨.anonymous, .binary "*" (.reference "x") (.number number)⟩

theorem tokenize_tight :
    Token.tokenize tight = .ok (tightTokens ++ [.atEnd (.ofNat 4 "tight.k")]) := by
  have pieces : Lexeme.pieces tight.text.toList =
      ([⟨.word, ['x']⟩, ⟨.operator, ['*']⟩, ⟨.numeral, ".5".toList⟩], []) := by cbv
  rw [tokenize_of_pieces pieces]
  rfl

theorem tokenize_wide :
    Token.tokenize wide = .ok (wideTokens ++ [.atEnd (.ofNat 10 "wide.k")]) := by
  have pieces : Lexeme.pieces wide.text.toList =
      ([⟨.openParen, ['(']⟩, ⟨.word, ['x']⟩, ⟨.closeParen, [')']⟩, ⟨.blank, [' ']⟩,
        ⟨.operator, ['*']⟩, ⟨.blank, [' ']⟩, ⟨.numeral, "0.50".toList⟩], []) := by cbv
  rw [tokenize_of_pieces pieces]
  rfl

theorem mem_items_of_renders {item : Item} {tokens : List Token} {ending : Token}
    (renders : RendersItem table item tokens) (ended : ending.kind = .eof) :
    item ∈ (Run.ofTokens (.ofTable table) (tokens ++ [ending])).items := by
  have program : RendersProgram table [item] (tokens ++ []) := .item renders .nothing (fun _ => nofun)
  rw [List.append_nil] at program
  rw [ofTokens, ParseState.ofTokens_append_eof ended, (startingAt_of_renders program ended rfl rfl).1]
  exact List.mem_singleton_self item

theorem product_mem_tight :
    product (.ofDecimal false 5 (-1)) ∈
      (Run.ofTokens (.ofTable .standard) (tightTokens ++ [.atEnd (.ofNat 4 "tight.k")])).items := by
  have times : PrecedenceTable.standard.Joins ⟨.operator, "*", .ofNat 1 1 "tight.k"⟩ 40 := ⟨rfl, rfl⟩
  have x := @Renders.reference .standard 255 ⟨.identifier, "x", .ofNat 0 1 "tight.k"⟩ rfl
  have read : Numeral.read? ".5".toList = some (.ofDecimal false 5 (-1)) := rfl
  have half := @Renders.number .standard 255 ⟨.number, ".5", .ofNat 2 2 "tight.k"⟩ _ rfl read
  refine mem_items_of_renders (.expression (.expression ?_)) rfl
  exact .binary times (Nat.zero_le _) (.alone x) (.alone half)

theorem product_mem_wide :
    product (.ofDecimal false 50 (-2)) ∈ (Run.ofTokens (.ofTable (.ofList [("*", 7)]))
      (wideTokens ++ [.atEnd (.ofNat 10 "wide.k")])).items := by
  have times : (PrecedenceTable.ofList [("*", 7)]).Joins ⟨.operator, "*", .ofNat 4 1 "wide.k"⟩ 7 :=
    ⟨rfl, rfl⟩
  have x := @Renders.reference (.ofList [("*", 7)]) 254 ⟨.identifier, "x", .ofNat 1 1 "wide.k"⟩ rfl
  have group := @Renders.group (.ofList [("*", 7)]) 255 ⟨.openParen, "(", .ofNat 0 1 "wide.k"⟩
    ⟨.closeParen, ")", .ofNat 2 1 "wide.k"⟩ _ _ rfl (.expression (.alone x)) rfl
  have read : Numeral.read? "0.50".toList = some (.ofDecimal false 50 (-2)) := rfl
  have half := @Renders.number (.ofList [("*", 7)]) 255 ⟨.number, "0.50", .ofNat 6 4 "wide.k"⟩ _ rfl
    read
  refine mem_items_of_renders (.expression (.expression ?_)) rfl
  exact .binary times (Nat.zero_le _) (.alone group) (.alone half)

/-- Two ways to write a product come to one item. -/
theorem item_eq_of_text_eq_product :
    ∃ tokens tokens', Token.tokenize tight = .ok tokens ∧ Token.tokenize wide = .ok tokens' ∧
      product (.ofDecimal false 5 (-1)) ∈ (Run.ofTokens (.ofTable .standard) tokens).items ∧
      product (.ofDecimal false 50 (-2)) ∈
        (Run.ofTokens (.ofTable (.ofList [("*", 7)])) tokens').items ∧
      product (.ofDecimal false 5 (-1)) = product (.ofDecimal false 50 (-2)) ∧
      (product (.ofDecimal false 5 (-1))).sameValue (product (.ofDecimal false 50 (-2))) = true := by
  have number := Binary64.ofDecimal_shift false 5 1 (-1)
  rw [show 5 * 10 ^ 1 = 50 from rfl, show (-1 : Int) - (1 : Nat) = -2 from rfl] at number
  have same := congrArg product number
  have finite : (product (.ofDecimal false 5 (-1))).IsFinite := by
    intro body has
    obtain rfl := Option.some.inj has
    exact .binary .reference (.number (by show min _ _ ≠ _; decide +kernel))
  have finite' : (product (.ofDecimal false 50 (-2))).IsFinite := by
    rw [same]
    exact finite
  refine ⟨_, _, tokenize_tight, tokenize_wide, product_mem_tight, product_mem_wide, ?_⟩
  exact item_eq_of_text_eq tokenize_tight tokenize_wide product_mem_tight product_mem_wide finite
    finite' (congrArg Item.text same.symm)

end Run

end OpLang
