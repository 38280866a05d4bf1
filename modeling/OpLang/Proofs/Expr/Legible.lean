/-
**Expressions are legible.**

The text of an expression is read in one way only. A name or a number goes on up to the next blank or
parenthesis (`IsAtom.append_inj`), and its spelling tells which of the two it is. The bracketed forms
begin with a parenthesis, as no name or number does, and of these only a call has a letter behind it. So
from texts that begin alike the same expression is read and the same text is left (`Expr.write_inj`).

Infinity is written `inf`, as a name may be. So this is about finite numbers, whose texts are numerals.
-/

import OpLang.Expr.Printer
import OpLang.Proofs.Item.WellFormed
import OpLang.Proofs.Number.ReadBack
import OpLang.Proofs.Token.Separation

namespace OpLang

/-! ### Names and numbers in a text -/

/-- The characters that do not end a name or a number. -/
def isInside (c : Char) : Bool := c != ' ' && c != '(' && c != ')'

theorem isInside_of {belongs : Char → Bool} {c : Char} (member : belongs c = true)
    (others : belongs ' ' = false ∧ belongs '(' = false ∧ belongs ')' = false) : isInside c = true := by
  obtain ⟨blank, opening, closing⟩ := others
  have apart : ∀ {other : Char}, belongs other = false → c ≠ other := by
    rintro other no rfl
    exact absurd (member.symm.trans no) (by decide)
  simp [isInside, apart blank, apart opening, apart closing]

/-- Whether a text is one piece, and not empty. -/
structure IsAtom (text : List Char) : Prop where
  nonempty : text ≠ []
  inside : ∀ c ∈ text, isInside c = true

/-- Whether a text is empty or begins with a character that ends a name or number before it. -/
def EndsAtom (rest : List Char) : Prop := ∀ c ∈ rest.head?, isInside c = false

theorem endsAtom_cons {c : Char} (ends : isInside c = false) (rest : List Char) :
    EndsAtom (c :: rest) := by
  intro first head
  obtain rfl := Option.some.inj head
  exact ends

namespace IsAtom

variable {text other rest rest' : List Char}

/-- **A piece ends where the text does not go on.** -/
theorem append_inj (isAtom : IsAtom text) (isAtom' : IsAtom other) (ends : EndsAtom rest)
    (ends' : EndsAtom rest') (same : text ++ rest = other ++ rest') : text = other ∧ rest = rest' := by
  have front : ∀ {text rest : List Char}, IsAtom text → EndsAtom rest →
      (text ++ rest).takeWhile isInside = text := by
    intro text rest isAtom ends
    have nothing : rest.takeWhile isInside = [] := by
      cases rest with
      | nil => rfl
      | cons c rest => exact List.takeWhile_cons_of_neg (by simp [ends c rfl])
    rw [List.takeWhile_append_of_pos isAtom.inside, nothing, List.append_nil]
  obtain rfl : text = other := by rw [← front isAtom ends, same, front isAtom' ends']
  exact ⟨rfl, List.append_cancel_left same⟩

/-- No piece begins with a parenthesis. -/
theorem append_ne_open (isAtom : IsAtom text) : text ++ rest ≠ '(' :: rest' := by
  obtain ⟨first, others, rfl⟩ := List.exists_cons_of_ne_nil isAtom.nonempty
  intro same
  obtain ⟨rfl, -⟩ := List.cons.inj same
  exact absurd (isAtom.inside '(' List.mem_cons_self) (by decide)

end IsAtom

theorem isAtom_of_isWord {word : List Char} (isWord : IsWord word) : IsAtom word := by
  cases isWord with
  | letter letter inside =>
    refine ⟨List.cons_ne_nil _ _, fun c member => ?_⟩
    rcases List.mem_cons.mp member with rfl | further
    · exact isInside_of letter (by decide)
    · exact isInside_of (inside c further) (by decide)

theorem isAtom_of_isNumeral {numeral : List Char} (isNumeral : IsNumeral numeral) : IsAtom numeral := by
  refine ⟨(Token.Kind.Spells.number isNumeral).ne_nil, ?_⟩
  have digits {text : List Char} (inside : ∀ c ∈ text, Numeral.isDigit c = true) :
      ∀ c ∈ text, isInside c = true :=
    fun c member => isInside_of (inside c member) (by decide)
  cases isNumeral with
  | whole _ inside => exact digits inside
  | pointed _ inside behind =>
    exact List.forall_mem_append.mpr
      ⟨digits inside, List.forall_mem_cons.mpr ⟨by decide, digits behind⟩⟩
  | fraction _ inside => exact List.forall_mem_cons.mpr ⟨by decide, digits inside⟩

theorem IsName.isAtom {name : String} (isName : IsName name) : IsAtom name.toList := by
  cases isName with
  | identifier isWord _ _ => exact isAtom_of_isWord isWord

/-- No name is a numeral. -/
theorem IsName.not_isNumeral {name : String} (isName : IsName name) : ¬ IsNumeral name.toList := by
  intro isNumeral
  have kinds := isName.eq_ofSpelling.trans (Token.Kind.Spells.number isNumeral).eq_ofSpelling.symm
  cases kinds

/-! ### Legible expressions -/

/-- Whether the names, operators and numbers of a tree are spelled as they are in sources. -/
inductive Expr.IsLegible : Expr → Prop where
  | number {value : Binary64} (isNumeral : IsNumeral value.text) : IsLegible (.number value)
  | reference {name : String} (isName : IsName name) : IsLegible (.reference name)
  | binary {operator : String} {left right : Expr}
      (spells : Token.Kind.operator.Spells operator.toList) (onLeft : IsLegible left)
      (onRight : IsLegible right) : IsLegible (.binary operator left right)
  | call {callee : String} {arguments : List Expr} (isName : IsName callee)
      (onArguments : ∀ argument ∈ arguments, IsLegible argument) :
      IsLegible (.call callee arguments)

/-- An operator is one character, and no letter. -/
theorem exists_char_of_spells {operator : List Char} (spells : Token.Kind.operator.Spells operator) :
    ∃ c, operator = [c] ∧ isLetter c = false := by
  cases spells with
  | operator punctuates _ => exact ⟨_, rfl, (not_alphanumeric_of_isPunctuation punctuates).1⟩

namespace Expr

variable {rest rest' : List Char}

/-- A call begins with a parenthesis and a letter. -/
theorem write_call (callee : String) (arguments : List Expr) (rest : List Char) :
    (call callee arguments).write rest = '(' :: 'c' :: ("all ".toList ++
      (callee.toList ++ writeArguments arguments (')' :: rest))) := rfl

/-- No operator is taken for the beginning of a call. -/
theorem binary_ne_call {operator : String} (spells : Token.Kind.operator.Spells operator.toList) :
    '(' :: (operator.toList ++ rest) ≠ '(' :: 'c' :: rest' := by
  obtain ⟨c, single, noLetter⟩ := exists_char_of_spells spells
  rw [single]
  intro same
  obtain ⟨rfl, -⟩ := List.cons.inj (List.cons.inj same).2
  exact absurd noLetter (by decide)

/-- What follows the callee of a call ends its name. -/
theorem endsAtom_writeArguments (arguments : List Expr) (rest : List Char) :
    EndsAtom (writeArguments arguments (')' :: rest)) := by
  cases arguments with
  | nil => exact endsAtom_cons rfl rest
  | cons argument others => exact endsAtom_cons rfl _

mutual

/-- **Expressions are read in one way.** -/
theorem write_inj : (tree : Expr) → tree.IsLegible → ∀ {other : Expr} {rest rest' : List Char},
    other.IsLegible → EndsAtom rest → EndsAtom rest' →
    tree.write rest = other.write rest' → tree = other ∧ rest = rest'
  | .number value, .number isNumeral, other, rest, rest', legible', ends, ends', same => by
    have isAtom := isAtom_of_isNumeral isNumeral
    cases legible' with
    | number isNumeral' =>
      obtain ⟨text, rfl⟩ := isAtom.append_inj (isAtom_of_isNumeral isNumeral') ends ends' same
      exact ⟨congrArg number (Binary64.text_injective text), rfl⟩
    | reference isName =>
      obtain ⟨text, -⟩ := isAtom.append_inj isName.isAtom ends ends' same
      exact absurd (text ▸ isNumeral) isName.not_isNumeral
    | binary _ _ _ => exact absurd same isAtom.append_ne_open
    | call _ _ => exact absurd (same.trans (write_call _ _ _)) isAtom.append_ne_open
  | .reference name, .reference isName, other, rest, rest', legible', ends, ends', same => by
    cases legible' with
    | number isNumeral =>
      obtain ⟨text, -⟩ := isName.isAtom.append_inj (isAtom_of_isNumeral isNumeral) ends ends' same
      exact absurd (text ▸ isNumeral) isName.not_isNumeral
    | reference isName' =>
      obtain ⟨text, rfl⟩ := isName.isAtom.append_inj isName'.isAtom ends ends' same
      exact ⟨congrArg reference (String.toList_inj.mp text), rfl⟩
    | binary _ _ _ => exact absurd same isName.isAtom.append_ne_open
    | call _ _ => exact absurd (same.trans (write_call _ _ _)) isName.isAtom.append_ne_open
  | .binary operator left right, .binary spells onLeft onRight, other, rest, rest', legible', ends,
      ends', same => by
    cases legible' with
    | number isNumeral => exact absurd same.symm (isAtom_of_isNumeral isNumeral).append_ne_open
    | reference isName => exact absurd same.symm isName.isAtom.append_ne_open
    | @binary operator' left' right' spells' onLeft' onRight' =>
      have single : operator.toList.length = operator'.toList.length := by
        obtain ⟨c, this, -⟩ := exists_char_of_spells spells
        obtain ⟨c', other, -⟩ := exists_char_of_spells spells'
        rw [this, other]
        rfl
      obtain ⟨symbol, operands⟩ := List.append_inj (List.cons.inj same).2 single
      obtain ⟨rfl, onward⟩ := write_inj left onLeft onLeft' (endsAtom_cons rfl _)
        (endsAtom_cons rfl _) (List.cons.inj operands).2
      obtain ⟨rfl, behind⟩ := write_inj right onRight onRight' (endsAtom_cons rfl _)
        (endsAtom_cons rfl _) (List.cons.inj onward).2
      exact ⟨congrArg (binary · left right) (String.toList_inj.mp symbol), (List.cons.inj behind).2⟩
    | call _ _ => exact absurd (same.trans (write_call _ _ _)) (binary_ne_call spells)
  | .call callee arguments, .call isName onArguments, other, rest, rest', legible', ends, ends', same => by
    cases legible' with
    | number isNumeral =>
      exact absurd (same.symm.trans (write_call _ _ _)) (isAtom_of_isNumeral isNumeral).append_ne_open
    | reference isName =>
      exact absurd (same.symm.trans (write_call _ _ _)) isName.isAtom.append_ne_open
    | binary spells _ _ => exact absurd (same.symm.trans (write_call _ _ _)) (binary_ne_call spells)
    | @call callee' arguments' isName' onArguments' =>
      obtain ⟨name, given⟩ := isName.isAtom.append_inj isName'.isAtom
        (endsAtom_writeArguments arguments rest) (endsAtom_writeArguments arguments' rest')
        (List.append_cancel_left same)
      obtain ⟨rfl, rfl⟩ := writeArguments_inj arguments onArguments onArguments' given
      exact ⟨congrArg (call · arguments) (String.toList_inj.mp name), rfl⟩

theorem writeArguments_inj : (trees : List Expr) → (∀ tree ∈ trees, tree.IsLegible) →
    ∀ {others : List Expr} {rest rest' : List Char}, (∀ tree ∈ others, tree.IsLegible) →
    writeArguments trees (')' :: rest) = writeArguments others (')' :: rest') →
    trees = others ∧ rest = rest'
  | [], _, [], rest, rest', _, same => ⟨rfl, (List.cons.inj same).2⟩
  | [], _, _ :: _, rest, rest', _, same => absurd (List.cons.inj same).1 (by decide)
  | _ :: _, _, [], rest, rest', _, same => absurd (List.cons.inj same).1 (by decide)
  | first :: more, legible, other :: others, rest, rest', legible', same => by
    obtain ⟨onFirst, onMore⟩ := List.forall_mem_cons.mp legible
    obtain ⟨onOther, onOthers⟩ := List.forall_mem_cons.mp legible'
    obtain ⟨rfl, left⟩ := write_inj first onFirst onOther (endsAtom_writeArguments more rest)
      (endsAtom_writeArguments others rest') (List.cons.inj same).2
    obtain ⟨rfl, rfl⟩ := writeArguments_inj more onMore onOthers left
    exact ⟨rfl, rfl⟩

end

end Expr

end OpLang
