/-
**What is parsed from a source is well formed.**

Every token of a source is spelled as its kind demands, and so are all tokens to come in every state
that parsers reach from there (`ParseState.IsSpelled`). The names, operators and numbers of an item are
those of the tokens it was parsed from, so they are spelled in that way, too.

* `Expr.IsWellFormed`, `Item.IsWellFormed`: names are words that are no keywords, operators are single
  punctuation characters of the table, and numbers are not negative.
* `Parser.item_isWellFormed`: items parsed from tokens that are spelled so are well formed.
* `Parser.Faults.cause_ne_badNumber`: parsers find fault with no number among such tokens.
-/

import OpLang.Proofs.Expr.Derivation
import OpLang.Proofs.Item.Yields
import OpLang.Proofs.Number.Numeral
import OpLang.Proofs.Parser.Walk

namespace OpLang

/-! ### Well-formed trees -/

/-- Whether a text is spelled as names are: a letter, and letters and digits behind it, but no keyword. -/
def IsName (text : String) : Prop := Token.Kind.identifier.Spells text.toList

/-- Whether a text is an operator of a table, and one punctuation character without a kind of its own. -/
structure IsOperatorOf (table : PrecedenceTable) (text : String) : Prop where
  spells : Token.Kind.operator.Spells text.toList
  known : (table.get? text).isSome = true

/-- Whether the names, operators and numbers of a tree are well formed. -/
inductive Expr.IsWellFormed (table : PrecedenceTable) : Expr → Prop where
  | number {value : Binary64} (nonnegative : value.IsNonnegative) : IsWellFormed table (.number value)
  | reference {name : String} (isName : IsName name) : IsWellFormed table (.reference name)
  | binary {operator : String} {left right : Expr} (isOperator : IsOperatorOf table operator)
      (onLeft : IsWellFormed table left) (onRight : IsWellFormed table right) :
      IsWellFormed table (.binary operator left right)
  | call {callee : String} {arguments : List Expr} (isName : IsName callee)
      (onArguments : ∀ argument ∈ arguments, IsWellFormed table argument) :
      IsWellFormed table (.call callee arguments)

/-- Whether the name and the parameters of a prototype are names. -/
structure Prototype.IsWellFormed (signature : Prototype) : Prop where
  isName : IsName signature.name
  isParameter : ∀ parameter ∈ signature.parameters, IsName parameter

/-- Whether the prototype and the body of an item are well formed; an expression on its own has the
anonymous prototype, and nothing else has. -/
inductive Item.IsWellFormed (table : PrecedenceTable) : Item → Prop where
  | definition {signature : Prototype} {body : Expr} (named : signature.IsWellFormed)
      (onBody : body.IsWellFormed table) : IsWellFormed table (.definition ⟨signature, body⟩)
  | external {signature : Prototype} (named : signature.IsWellFormed) :
      IsWellFormed table (.external signature)
  | expression {body : Expr} (onBody : body.IsWellFormed table) :
      IsWellFormed table (.expression ⟨.anonymous, body⟩)

/-- A well-formed prototype is not the anonymous one, which begins with no letter. -/
theorem Prototype.IsWellFormed.isAnonymous_eq {signature : Prototype}
    (named : signature.IsWellFormed) : signature.isAnonymous = false := by
  refine Bool.eq_false_iff.mpr fun anonymous => ?_
  have isName : IsName Prototype.anonymous.name := isAnonymous_iff.mp anonymous ▸ named.isName
  cases isName with
  | identifier isWord _ _ =>
    cases isWord with
    | letter letter _ => exact absurd letter (by decide)

/-- **Only expressions have the anonymous prototype.** -/
theorem Item.IsWellFormed.isAnonymous_iff {table : PrecedenceTable} {item : Item}
    (wellFormed : item.IsWellFormed table) :
    item.prototype.isAnonymous = true ↔ item.event = .expression := by
  cases wellFormed with
  | definition named _ => simp [prototype, event, named.isAnonymous_eq]
  | external named => simp [prototype, event, named.isAnonymous_eq]
  | expression _ => exact iff_of_true rfl rfl

variable {table : PrecedenceTable}

/-! ### Mentions -/

/-- Whether what a tree mentions is well formed. -/
def Mention.IsWellFormed (table : PrecedenceTable) : Mention → Prop
  | .number value => value.IsNonnegative
  | .name text => IsName text
  | .operator text => IsOperatorOf table text

namespace Expr

mutual

/-- A tree is well formed if all that it mentions is. -/
theorem isWellFormed_of_mentions : (tree : Expr) →
    (∀ mention ∈ tree.mentions, mention.IsWellFormed table) → tree.IsWellFormed table
  | .number value, mentioned => .number (mentioned (.number value) List.mem_cons_self)
  | .reference name, mentioned => .reference (mentioned (.name name) List.mem_cons_self)
  | .binary operator left right, mentioned => by
    simp only [mentions, List.mem_append, List.mem_cons] at mentioned
    refine .binary (mentioned (.operator operator) (Or.inr (Or.inl rfl))) ?_ ?_
    · exact left.isWellFormed_of_mentions fun mention inside => mentioned mention (Or.inl inside)
    · exact right.isWellFormed_of_mentions fun mention inside =>
        mentioned mention (Or.inr (Or.inr inside))
  | .call callee arguments, mentioned => by
    simp only [mentions, List.mem_cons] at mentioned
    refine .call (mentioned (.name callee) (Or.inl rfl)) ?_
    exact isWellFormed_of_mentionsAll arguments fun mention inside =>
      mentioned mention (Or.inr inside)

theorem isWellFormed_of_mentionsAll : (trees : List Expr) →
    (∀ mention ∈ mentionsAll trees, mention.IsWellFormed table) →
    ∀ tree ∈ trees, tree.IsWellFormed table
  | [], _ => nofun
  | first :: others, mentioned => by
    simp only [mentionsAll, List.mem_append] at mentioned
    have onFirst : first.IsWellFormed table :=
      first.isWellFormed_of_mentions fun mention inside => mentioned mention (Or.inl inside)
    intro tree member
    rcases List.mem_cons.mp member with rfl | further
    · exact onFirst
    · exact isWellFormed_of_mentionsAll others
        (fun mention inside => mentioned mention (Or.inr inside)) tree further

end

end Expr

/-! ### Spelled tokens -/

/-- Whether a token is the end or spelled as its kind demands. -/
def Token.IsSpelled (token : Token) : Prop :=
  token.kind ≠ .eof → token.kind.Spells token.value.toList

/-- Whether a token, if it is an operator, is one of the table. -/
def Token.IsKnown (table : PrecedenceTable) (token : Token) : Prop :=
  token.kind = .operator → ∃ precedence, table.Joins token precedence

theorem Token.IsSpelled.isName {token : Token} (spelled : token.IsSpelled)
    (kind : token.kind = .identifier) : IsName token.value := by
  have spells := spelled (by simp [kind])
  rw [kind] at spells
  exact spells

theorem Token.IsSpelled.exists_read {token : Token} (spelled : token.IsSpelled)
    (kind : token.kind = .number) :
    ∃ value, Numeral.read? token.value.toList = some value ∧ value.IsNonnegative := by
  have spells := spelled (by simp [kind])
  rw [kind] at spells
  cases spells with
  | number isNumeral => exact isNumeral.exists_read

/-- What such a token contributes to a tree is well formed. -/
theorem Token.IsSpelled.mention_isWellFormed {token : Token} (spelled : token.IsSpelled)
    (known : token.IsKnown table) {mention : Mention} (mentioned : token.mention? = some mention) :
    mention.IsWellFormed table := by
  unfold Token.mention? at mentioned
  cases kind : token.kind with
  | number =>
    obtain ⟨value, read, nonnegative⟩ := spelled.exists_read kind
    simp only [kind, read, Option.map_some, Option.some.injEq] at mentioned
    subst mentioned
    exact nonnegative
  | identifier =>
    simp only [kind, Option.some.injEq] at mentioned
    subst mentioned
    exact spelled.isName kind
  | operator =>
    obtain ⟨precedence, _, entry⟩ := known kind
    have spells := spelled (by simp [kind])
    simp only [kind, Option.some.injEq] at mentioned
    rw [kind] at spells
    subst mentioned
    exact ⟨spells, Option.isSome_iff_exists.mpr ⟨precedence, entry⟩⟩
  | _ => simp [kind] at mentioned

/-! ### Operators of derived expressions -/

/-- Whether tokens go on with a rest behind some of which the operators are all in the table. -/
def KnownUpTo (table : PrecedenceTable) (tokens rest : List Token) : Prop :=
  ∃ taken, tokens = taken ++ rest ∧ ∀ token ∈ taken, token.IsKnown table

namespace KnownUpTo

variable {tokens middle rest : List Token} {token : Token}

theorem nothing : KnownUpTo table tokens tokens := ⟨[], rfl, nofun⟩

theorem trans (first : KnownUpTo table tokens middle) (second : KnownUpTo table middle rest) :
    KnownUpTo table tokens rest := by
  obtain ⟨taken, rfl, known⟩ := first
  obtain ⟨others, rfl, known'⟩ := second
  refine ⟨taken ++ others, (List.append_assoc _ _ _).symm, fun token member => ?_⟩
  rcases List.mem_append.mp member with inside | inside
  · exact known token inside
  · exact known' token inside

theorem cons (known : token.IsKnown table) (others : KnownUpTo table tokens rest) :
    KnownUpTo table (token :: tokens) rest := by
  refine trans ⟨[token], rfl, fun other member => ?_⟩ others
  obtain rfl := List.mem_singleton.mp member
  exact known

/-- A token of another kind is no unknown operator. -/
theorem cons_of_kind {kind : Token.Kind} (due : token.kind = kind) (other : kind ≠ .operator)
    (others : KnownUpTo table tokens rest) : KnownUpTo table (token :: tokens) rest :=
  cons (fun operator => absurd (due.symm.trans operator) other) others

end KnownUpTo

/-- **Only operators of the table stand in derived expressions.** -/
theorem Derives.knownUpTo {part : Nonterminal} {room : Nat} {tokens rest : List Token}
    (derives : Derives table part room tokens rest) : KnownUpTo table tokens rest := by
  induction derives with
  | expression _ _ ihOperand ihLinks => exact ihOperand.trans ihLinks
  | noLink => exact .nothing
  | link joins _ _ ihOperand ihLinks =>
    exact .cons (fun _ => ⟨_, joins⟩) (ihOperand.trans ihLinks)
  | number kind _ => exact .cons_of_kind kind (by decide) .nothing
  | reference kind _ => exact .cons_of_kind kind (by decide) .nothing
  | emptyCall kind opens closes =>
    exact .cons_of_kind kind (by decide) (.cons_of_kind opens (by decide)
      (.cons_of_kind closes (by decide) .nothing))
  | call kind opens _ ihArguments =>
    exact .cons_of_kind kind (by decide) (.cons_of_kind opens (by decide) ihArguments)
  | group opens _ closes ihInner =>
    exact .cons_of_kind opens (by decide)
      (ihInner.trans (.cons_of_kind closes (by decide) .nothing))
  | lastArgument _ closes ihArgument =>
    exact ihArgument.trans (.cons_of_kind closes (by decide) .nothing)
  | argument _ goesOn _ ihArgument ihArguments =>
    exact ihArgument.trans (.cons_of_kind goesOn (by decide) ihArguments)

namespace ParseState

/-- Whether all tokens to come are spelled as their kinds demand. -/
def IsSpelled (state : ParseState) : Prop := ∀ token ∈ state.upcoming, token.IsSpelled

variable {state after : ParseState} {taken : List Token}

theorem IsSpelled.current (spelled : state.IsSpelled) : state.current.IsSpelled :=
  spelled _ state.current_mem_upcoming

theorem IsSpelled.advance (spelled : state.IsSpelled) : state.advance.IsSpelled :=
  fun token member => spelled token (state.mem_of_mem_advance member)

theorem IsSpelled.of_mem_taken (spelled : state.IsSpelled) (takes : state.Takes taken after) :
    ∀ token ∈ taken, token.IsSpelled := by
  intro token member
  refine spelled token ?_
  rw [takes.upcoming_eq]
  exact List.mem_append_left _ member

theorem IsSpelled.of_takes (spelled : state.IsSpelled) (takes : state.Takes taken after) :
    after.IsSpelled := by
  intro token member
  refine spelled token ?_
  rw [takes.upcoming_eq]
  exact List.mem_append_right _ member

end ParseState

namespace Parser

variable {state after : ParseState}

/-- **No fault is found with a number** among spelled tokens. -/
theorem Faults.cause_ne_badNumber {taken : List Token} {diagnostic : Diagnostic}
    (faults : Faults taken after diagnostic) (spelled : ∀ token ∈ taken, token.IsSpelled)
    (text : String) : diagnostic.cause ≠ .badNumber text := by
  cases faults with
  | @current diagnostic here =>
    intro bad
    rw [← diagnostic.isAtCurrent_raisedAt after.current, bad] at here
    exact Bool.false_ne_true here
  | number last kind unread =>
    subst last
    obtain ⟨value, read, _⟩ := (spelled _ (by simp)).exists_read kind
    rw [unread] at read
    cases read

/-! ### What is yielded -/

/-- **Trees parsed from spelled tokens are well formed.** -/
theorem expr_isWellFormed {tree : Expr} (spelled : state.IsSpelled)
    (yields : (expr (.ofTable table)).Yields state tree after) : tree.IsWellFormed table := by
  obtain ⟨⟨taken, takes, mentions⟩, derives⟩ := expr_accounts state tree after yields
  -- The tokens taken and those derived are the same: both are what comes before the rest.
  obtain ⟨taken', upcoming, known⟩ := derives.knownUpTo
  obtain rfl := List.append_cancel_right (takes.upcoming_eq.symm.trans upcoming)
  refine tree.isWellFormed_of_mentions ?_
  intro mention member
  rw [mentions] at member
  obtain ⟨token, inside, mentioned⟩ := List.mem_filterMap.mp member
  exact (spelled.of_mem_taken takes token inside).mention_isWellFormed (known token inside) mentioned

theorem parameters_areNames {names : List String} (spelled : state.IsSpelled)
    (yields : parameters.Yields state names after) : ∀ name ∈ names, IsName name := by
  induction tokens : state.remaining using Nat.strongRecOn generalizing state names with
  | ind tokens ih =>
    subst tokens
    obtain ⟨kind, ⟨_, rfl, _⟩ | ⟨goesOn, others, rest, rfl⟩⟩ := yields_parameters.mp yields
    · intro name member
      obtain rfl := List.mem_singleton.mp member
      exact spelled.current.isName kind
    · intro name member
      rcases List.mem_cons.mp member with rfl | further
      · exact spelled.current.isName kind
      · have more : 0 < state.remaining := ParseState.remaining_pos (by simp [kind])
        have fewer : state.advance.advance.remaining < state.remaining := by
          simp
          omega
        exact ih _ fewer spelled.advance.advance rest rfl name further

theorem prototype_isWellFormed {signature : Prototype} (spelled : state.IsSpelled)
    (yields : prototype.Yields state signature after) : signature.IsWellFormed := by
  obtain ⟨kind, _, ⟨_, rfl, _⟩ | ⟨_, names, rest, rfl⟩⟩ := yields_prototype.mp yields
  · exact ⟨spelled.current.isName kind, by simp⟩
  · exact ⟨spelled.current.isName kind, parameters_areNames spelled.advance.advance rest⟩

/-- **Items parsed from spelled tokens are well formed.** -/
theorem item_isWellFormed {read : Item} (spelled : state.IsSpelled)
    (yields : (item (.ofTable table)).Yields state read after) : read.IsWellFormed table := by
  rcases yields_item.mp yields with ⟨_, signature, middle, body, named, onBody, rfl⟩ |
    ⟨_, signature, named, rfl⟩ | ⟨_, _, body, onBody, rfl⟩
  · obtain ⟨trace, reply⟩ := named
    obtain ⟨taken, takes⟩ := (prototype_walks state.advance).of_parsed reply
    have inside : middle.IsSpelled := spelled.advance.of_takes takes
    exact .definition (prototype_isWellFormed spelled.advance ⟨trace, reply⟩)
      (expr_isWellFormed inside onBody)
  · exact .external (prototype_isWellFormed spelled.advance named)
  · exact .expression (expr_isWellFormed spelled onBody)

end Parser

end OpLang
