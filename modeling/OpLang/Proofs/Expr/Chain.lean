/-
**Chains yield their reference trees.**

`ReadsLinks grammar state links after` says which operators with operands stand at a state, each
operator in the table of the grammar and each operand as `operand` reads it: a grammar of chains
that knows no thresholds. Against it stands precedence climbing, `chain`, which calls itself with
rising thresholds.

* `yields_chain_iff_climbs`: a chain yields exactly the well-bound bracketings of the links that
  it reads, and stops before the first operator looser than its threshold. The direction from
  climbing to bracketings is an induction on the tokens to come, in which what is folded so far is
  the first operand of the chain still to be read and is grafted into its bracketing afterwards.
* `chain_yields_reference`: hence a chain yields the reference tree of its links, and an expression
  that of a chain which cannot be longer.
-/

import OpLang.Proofs.Expr.Bracketing
import OpLang.Proofs.Expr.Induction

namespace OpLang

/-! ### Operators of the table -/

/-- Whether a token is an operator of the table, of the given precedence. -/
def PrecedenceTable.Joins (table : PrecedenceTable) (token : Token) (precedence : UInt16) : Prop :=
  token.kind = .operator ∧ table.get? token.value = some precedence

namespace Grammar

variable {grammar : Grammar} {token : Token}

/-- A token is an operator of the table, and its binding power is its precedence, or it is none and
has the binding power of no operator. -/
theorem joins_or_not (grammar : Grammar) (token : Token) :
    (∃ precedence, grammar.table.Joins token precedence ∧
      grammar.bindingPower token = precedence.toNat) ∨
    ((∀ precedence, ¬ grammar.table.Joins token precedence) ∧ grammar.bindingPower token = -1) := by
  unfold PrecedenceTable.Joins Grammar.bindingPower
  by_cases kind : token.kind = .operator
  · rw [if_pos kind, PrecedenceTable.bindingPower]
    cases grammar.table.get? token.value with
    | none => exact Or.inr ⟨by simp, rfl⟩
    | some precedence => exact Or.inl ⟨precedence, ⟨kind, rfl⟩, rfl⟩
  · rw [if_neg kind]
    exact Or.inr ⟨by simp [kind], rfl⟩

/-- Binding powers are precedences, or one less than the least of them. -/
theorem bindingPower_bounds (grammar : Grammar) (token : Token) :
    -1 ≤ grammar.bindingPower token ∧ grammar.bindingPower token ≤ 65535 := by
  rcases joins_or_not grammar token with ⟨precedence, _, power⟩ | ⟨_, power⟩
  · have below := precedence.toNat_lt
    omega
  · omega

theorem bindingPower_of_joins {precedence : UInt16}
    (joins : grammar.table.Joins token precedence) :
    grammar.bindingPower token = precedence.toNat := by
  rcases joins_or_not grammar token with ⟨precedence', joins', power⟩ | ⟨apart, _⟩
  · obtain rfl := Option.some.inj (joins.2.symm.trans joins'.2)
    exact power
  · exact absurd joins (apart precedence)

/-- Only operators of the table have a binding power of zero or more. -/
theorem joins_of_bindingPower (tight : 0 ≤ grammar.bindingPower token) :
    ∃ precedence, grammar.table.Joins token precedence := by
  rcases joins_or_not grammar token with ⟨precedence, joins, _⟩ | ⟨_, power⟩
  · exact ⟨precedence, joins⟩
  · omega

/-- A threshold that no operator of the table reaches here is above the binding power. -/
theorem bindingPower_lt_iff {minimum : Int} (valid : 0 ≤ minimum) :
    grammar.bindingPower token < minimum ↔
      ∀ precedence, grammar.table.Joins token precedence → (precedence.toNat : Int) < minimum := by
  constructor
  · intro loose precedence joins
    rw [← bindingPower_of_joins joins]
    exact loose
  · intro loose
    by_cases tight : 0 ≤ grammar.bindingPower token
    · obtain ⟨precedence, joins⟩ := joins_of_bindingPower tight
      rw [bindingPower_of_joins joins]
      exact loose precedence joins
    · omega

/-- No operator of the table stands here exactly if the binding power is below zero. -/
theorem bindingPower_neg_iff :
    grammar.bindingPower token < 0 ↔ ∀ precedence, ¬ grammar.table.Joins token precedence := by
  rw [bindingPower_lt_iff (Int.le_refl 0)]
  refine forall_congr' fun precedence => imp_congr_right fun _ => ?_
  simp only [iff_false]
  omega

end Grammar

namespace Parser

/-- Whether the given links stand at a state, one after the other: operators of the table, each
followed by an operand. -/
inductive ReadsLinks (grammar : Grammar) : ParseState → List Link → ParseState → Prop where
  | done {state : ParseState} : ReadsLinks grammar state [] state
  | link {state middle after : ParseState} {precedence : UInt16} {first : Expr}
      {links : List Link} (joins : grammar.table.Joins state.current precedence)
      (yields : (operand grammar).Yields state.advance first middle)
      (others : ReadsLinks grammar middle links after) :
      ReadsLinks grammar state (⟨state.current.value, precedence.toNat, first⟩ :: links) after

namespace ReadsLinks

variable {grammar : Grammar} {state middle after : ParseState} {links others : List Link}

theorem append (first : ReadsLinks grammar state links middle)
    (second : ReadsLinks grammar middle others after) :
    ReadsLinks grammar state (links ++ others) after := by
  induction first with
  | done => exact second
  | link joins yields _ ih => exact .link joins yields (ih second)

theorem remaining_le (reads : ReadsLinks grammar state links after) :
    after.remaining ≤ state.remaining := by
  induction reads with
  | done => exact Nat.le_refl _
  | link _ yields _ ih =>
    have fewer := remaining_of_yields_operand yields
    rw [ParseState.remaining_advance] at fewer
    omega

/-- **What was read is determined by where reading began and stopped.** -/
theorem unique (reads : ReadsLinks grammar state links after)
    (reads' : ReadsLinks grammar state others after) : links = others := by
  induction reads generalizing others with
  | done =>
    cases reads' with
    | done => rfl
    | link _ yields' more =>
      have fewer := remaining_of_yields_operand yields'
      have further := more.remaining_le
      rw [ParseState.remaining_advance] at fewer
      omega
  | link joins yields more ih =>
    cases reads' with
    | done =>
      have fewer := remaining_of_yields_operand yields
      have further := more.remaining_le
      rw [ParseState.remaining_advance] at fewer
      omega
    | link joins' yields' more' =>
      obtain ⟨rfl, rfl⟩ := yields.unique yields'
      obtain rfl := Option.some.inj (joins.2.symm.trans joins'.2)
      rw [ih more']

end ReadsLinks

variable {grammar : Grammar}

/-! ### From climbing to bracketings -/

/-- What a chain with the threshold `minimum` and the first operand `left` has to do: read links none
of which is looser than the threshold, up to an operator that is, and yield a well-bound bracketing
of them. -/
structure Climbs (grammar : Grammar) (minimum : Int) (left : Expr) (state : ParseState)
    (bracketing : Bracketing) (after : ParseState) : Prop where
  reads : ReadsLinks grammar state bracketing.links after
  first : bracketing.first = left
  wellBound : bracketing.WellBound
  tight : ∀ link ∈ bracketing.links, minimum ≤ link.precedence
  stops : grammar.bindingPower after.current < minimum

/-- The first of the links that stand at a state has the binding power of the current token. -/
theorem ReadsLinks.head_precedence {state after : ParseState} {links : List Link}
    (reads : ReadsLinks grammar state links after) :
    ∀ link ∈ links.head?, (link.precedence : Int) = grammar.bindingPower state.current := by
  intro link head
  cases reads with
  | done => cases head
  | link joins yields others =>
    obtain rfl := Option.some.inj head
    exact (Grammar.bindingPower_of_joins joins).symm

/-- An operator and a bracketing of its right side, put between what was folded before them and what
is read after them. -/
theorem Climbs.fold {minimum : Int} {left first : Expr} {state middle last after : ParseState}
    {precedence : UInt16} {inner rest : Bracketing}
    (joins : grammar.table.Joins state.current precedence) (enough : minimum ≤ precedence.toNat)
    (yields : (operand grammar).Yields state.advance first middle)
    (right : Climbs grammar (precedence.toNat + 1) first middle inner last)
    (climbs : Climbs grammar minimum (.binary state.current.value left inner.expr) last rest after) :
    Climbs grammar minimum left state
      (.graft (.join state.current.value precedence.toNat (.operand left) inner) rest) after := by
  have links : (Bracketing.graft (.join state.current.value precedence.toNat (.operand left) inner)
      rest).links = ⟨state.current.value, precedence.toNat, first⟩ :: (inner.links ++ rest.links) := by
    rw [Bracketing.links_graft]
    simp [Bracketing.links, right.first]
  refine ⟨?_, ?_, ?_, ?_, climbs.stops⟩
  · rw [links]
    exact .link joins yields (right.reads.append climbs.reads)
  · rw [Bracketing.first_graft]
    rfl
  · refine Bracketing.WellBound.graft ⟨trivial, right.wellBound, ?_, ?_⟩ climbs.wellBound ?_
    · intro below top
      cases top
    · intro below top
      obtain ⟨link, member, rfl⟩ := Bracketing.exists_link_of_precedence? top
      have above := right.tight link member
      omega
    · -- The operator after the fold is the one before which its right side stopped.
      intro link head top atTop
      obtain rfl := Option.some.inj atTop
      have power := climbs.reads.head_precedence link head
      have stops := right.stops
      omega
  · rw [links]
    intro link member
    rcases List.mem_cons.mp member with rfl | inside
    · exact enough
    · rcases List.mem_append.mp inside with inRight | inRest
      · have above := right.tight link inRight
        omega
      · exact climbs.tight link inRest

/-- An operand that is not extended is a bracketing of itself. -/
theorem Climbs.operand {minimum : Int} {left : Expr} {state : ParseState}
    (stops : grammar.bindingPower state.current < minimum) :
    Climbs grammar minimum left state (.operand left) state :=
  ⟨.done, rfl, trivial, fun _ inside => absurd inside List.not_mem_nil, stops⟩

/-- **Climbing yields well-bound bracketings.** -/
theorem exists_climbs_of_yields {minimum : Int} {left tree : Expr} {state after : ParseState}
    (valid : 0 ≤ minimum) (yields : (chain grammar minimum left).Yields state tree after) :
    ∃ bracketing, Climbs grammar minimum left state bracketing after ∧ bracketing.expr = tree := by
  induction tokens : state.remaining using Nat.strongRecOn
    generalizing minimum left tree state after with
  | ind tokens ih =>
    subst tokens
    rcases yields_chain.mp yields with
      ⟨stops, rfl, rfl⟩ | ⟨tight, first, middle, right, last, operand, extension, more⟩
    · exact ⟨.operand tree, .operand stops, rfl⟩
    · obtain ⟨precedence, joins⟩ := Grammar.joins_of_bindingPower (Int.le_trans valid tight)
      rw [Grammar.bindingPower_of_joins joins] at tight extension
      have fewer := remaining_of_yields_operand operand
      rw [ParseState.remaining_advance] at fewer
      have notMore := remaining_of_yields_extended extension
      have climbsRight : ∃ inner, Climbs grammar (precedence.toNat + 1) first middle inner last ∧
          inner.expr = right := by
        rcases yields_extended.mp extension with ⟨_, chain⟩ | ⟨loose, rfl, rfl⟩
        · exact ih middle.remaining (by omega) (by omega) chain rfl
        · exact ⟨.operand right, .operand (Int.lt_add_one_of_le loose), rfl⟩
      obtain ⟨inner, climbsInner, rfl⟩ := climbsRight
      obtain ⟨rest, climbsRest, rfl⟩ := ih last.remaining (by omega) valid more rfl
      refine ⟨_, .fold joins tight operand climbsInner climbsRest, ?_⟩
      exact Bracketing.expr_graft climbsRest.first.symm

/-! ### From bracketings to climbing -/

/-- Links can be cut before the first one that is not tighter than a precedence, if what stands after
them all is not tighter either. -/
theorem ReadsLinks.cut {state after : ParseState} {links : List Link} {precedence : Nat}
    (reads : ReadsLinks grammar state links after)
    (stops : grammar.bindingPower after.current ≤ precedence) :
    ∃ inner rest last, links = inner ++ rest ∧ ReadsLinks grammar state inner last ∧
      ReadsLinks grammar last rest after ∧ (∀ link ∈ inner, precedence < link.precedence) ∧
      grammar.bindingPower last.current ≤ precedence := by
  induction reads with
  | @done state =>
    exact ⟨[], [], state, rfl, .done, .done, fun _ inside => absurd inside List.not_mem_nil, stops⟩
  | @link state middle after precedence' first links joins yields others ih =>
    by_cases tighter : precedence < precedence'.toNat
    · obtain ⟨inner, rest, last, rfl, readsInner, readsRest, above, below⟩ := ih stops
      refine ⟨_ :: inner, rest, last, rfl, .link joins yields readsInner, readsRest, ?_, below⟩
      intro link member
      rcases List.mem_cons.mp member with rfl | inside
      · exact tighter
      · exact above link inside
    · refine ⟨[], _, state, rfl, .done, .link joins yields others, ?_, ?_⟩
      · exact fun _ inside => absurd inside List.not_mem_nil
      · rw [Grammar.bindingPower_of_joins joins]
        omega

/-- **Climbing fails nowhere:** where links stand that are tight enough, a chain reads them all, and
yields. -/
theorem exists_yields_of_reads {minimum : Int} {state after : ParseState} {links : List Link}
    (valid : 0 ≤ minimum) (reads : ReadsLinks grammar state links after)
    (tight : ∀ link ∈ links, minimum ≤ link.precedence)
    (stops : grammar.bindingPower after.current < minimum) (left : Expr) :
    ∃ tree, (chain grammar minimum left).Yields state tree after := by
  induction count : links.length using Nat.strongRecOn
    generalizing minimum left state after links with
  | ind count ih =>
    subst count
    cases reads with
    | done => exact ⟨left, yields_chain.mpr (Or.inl ⟨stops, rfl, rfl⟩)⟩
    | @link _ middle _ precedence first others joins yields more =>
      have enough : minimum ≤ precedence.toNat := tight _ List.mem_cons_self
      -- The links that extend the right side of this operator, and those after it.
      have loose : grammar.bindingPower after.current ≤ precedence.toNat := by omega
      obtain ⟨inner, rest, last, rfl, readsInner, readsRest, above, below⟩ := more.cut loose
      have right : ∃ right, (extended grammar precedence.toNat first).Yields middle right last := by
        cases inner with
        | nil =>
          cases readsInner
          exact ⟨first, yields_extended.mpr (Or.inr ⟨below, rfl, rfl⟩)⟩
        | cons link links =>
          have power := readsInner.head_precedence link rfl
          have tighter := above link List.mem_cons_self
          have tightInner : ∀ other ∈ link :: links, (precedence.toNat : Int) + 1 ≤ other.precedence :=
            fun other member => Int.add_one_le_of_lt (Int.ofNat_lt.mpr (above other member))
          obtain ⟨right, chain⟩ := ih (link :: links).length
            (by simp only [List.length_cons, List.length_append]; omega) (by omega) readsInner
            tightInner (Int.lt_add_one_of_le below) first rfl
          exact ⟨right, yields_extended.mpr (Or.inl ⟨by omega, chain⟩)⟩
      obtain ⟨right, extension⟩ := right
      have tightRest : ∀ link ∈ rest, minimum ≤ link.precedence := fun link member =>
        tight link (List.mem_cons_of_mem _ (List.mem_append_right _ member))
      obtain ⟨tree, chain⟩ := ih rest.length
        (by simp only [List.length_cons, List.length_append]; omega) valid readsRest tightRest stops
        (.binary state.current.value left right) rfl
      refine ⟨tree, yields_chain.mpr (Or.inr ⟨?_, first, middle, right, last, yields, ?_, chain⟩)⟩
      · rw [Grammar.bindingPower_of_joins joins]
        exact enough
      · rw [Grammar.bindingPower_of_joins joins]
        exact extension

/-- **A chain yields exactly the well-bound bracketings** of what it reads. -/
theorem yields_chain_iff_climbs {minimum : Int} {left tree : Expr} {state after : ParseState}
    (valid : 0 ≤ minimum) :
    (chain grammar minimum left).Yields state tree after ↔
      ∃ bracketing, Climbs grammar minimum left state bracketing after ∧
        bracketing.expr = tree := by
  constructor
  · exact exists_climbs_of_yields valid
  · rintro ⟨bracketing, climbs, rfl⟩
    obtain ⟨tree, yields⟩ :=
      exists_yields_of_reads valid climbs.reads climbs.tight climbs.stops left
    obtain ⟨bracketing', climbs', rfl⟩ := exists_climbs_of_yields valid yields
    have same : bracketing' = bracketing := by
      rw [Bracketing.eq_reference climbs.wellBound, Bracketing.eq_reference climbs'.wellBound,
        climbs.first, climbs'.first, climbs.reads.unique climbs'.reads]
    rw [same] at yields
    exact yields

/-! ### Reference trees -/

/-- **Precedence climbing builds the one correct tree.** A chain with a threshold reads links none of
which is looser than the threshold, stops before an operator that is looser or before what is no
operator of the table, and yields the reference tree of its first operand and these links. An
expression yields the reference tree of a chain after which no operator of the table stands, and in
the bracketing of this tree looser operators never stand below tighter ones, nor, on the right, below
equal ones. -/
theorem chain_yields_reference (grammar : Grammar) :
    (∀ (minimum : Int) (left tree : Expr) (state after : ParseState), 0 ≤ minimum →
      (chain grammar minimum left).Yields state tree after →
      ∃ links, ReadsLinks grammar state links after ∧
        (∀ others, ReadsLinks grammar state others after → others = links) ∧
        (∀ link ∈ links, minimum ≤ link.precedence) ∧
        (∀ precedence, grammar.table.Joins after.current precedence →
          (precedence.toNat : Int) < minimum) ∧
        tree = (Bracketing.reference left links).expr) ∧
    (∀ (tree : Expr) (state after : ParseState), (expr grammar).Yields state tree after →
      ∃ first links middle last, (operand grammar).Yields state.deeper first middle ∧
        ReadsLinks grammar middle links last ∧ after = last.shallower ∧
        (∀ precedence, ¬ grammar.table.Joins after.current precedence) ∧
        tree = (Bracketing.reference first links).expr ∧
        (Bracketing.reference first links).WellBound) := by
  constructor
  · intro minimum left tree state after valid yields
    obtain ⟨bracketing, climbs, rfl⟩ := (yields_chain_iff_climbs valid).mp yields
    refine ⟨bracketing.links, climbs.reads, fun others reads => reads.unique climbs.reads,
      climbs.tight, (Grammar.bindingPower_lt_iff valid).mp climbs.stops, ?_⟩
    rw [← climbs.first, ← Bracketing.eq_reference climbs.wellBound]
  · intro tree state after yields
    obtain ⟨_, first, middle, last, operand, chain, rfl⟩ := yields_expr.mp yields
    obtain ⟨bracketing, climbs, rfl⟩ := (yields_chain_iff_climbs (Int.le_refl 0)).mp chain
    have reference : bracketing = Bracketing.reference first bracketing.links := by
      rw [← climbs.first, ← Bracketing.eq_reference climbs.wellBound]
    refine ⟨first, bracketing.links, middle, last, operand, climbs.reads, rfl,
      Grammar.bindingPower_neg_iff.mp climbs.stops, congrArg Bracketing.expr reference, ?_⟩
    exact Bracketing.wellBound_reference first bracketing.links

/-- The tokens of `a - b * c - d`. -/
def differences : List Token :=
  [.unplaced .identifier "a", .unplaced .operator "-", .unplaced .identifier "b",
    .unplaced .operator "*", .unplaced .identifier "c", .unplaced .operator "-",
    .unplaced .identifier "d"]

/-- `a - b * c - d` is `(a - (b * c)) - d`, whether `a` has been read already or is still to come. -/
theorem chain_yields_reference_differences :
    let grammar := Grammar.ofTable .standard
    let state := ParseState.ofTokens differences
    let after : ParseState := ⟨⟨7, [], .atEnd .unknown, rfl⟩, 0⟩
    let tree := Expr.binary "-"
      (.binary "-" (.reference "a") (.binary "*" (.reference "b") (.reference "c")))
      (.reference "d")
    (chain grammar 0 (.reference "a")).Yields state.advance tree after ∧
      (expr grammar).Yields state tree after ∧
      (∃ links, ReadsLinks grammar state.advance links after ∧
        tree = (Bracketing.reference (.reference "a") links).expr) ∧
      ∃ first links, tree = (Bracketing.reference first links).expr ∧
        (Bracketing.reference first links).WellBound := by
  intro grammar state after tree
  have minus : grammar.table.Joins (.unplaced .operator "-") 20 := ⟨rfl, rfl⟩
  have times : grammar.table.Joins (.unplaced .operator "*") 40 := ⟨rfl, rfl⟩
  have reads (depth : Nat) : ReadsLinks grammar ⟨state.advance.stream, depth⟩
      [⟨"-", 20, .reference "b"⟩, ⟨"*", 40, .reference "c"⟩, ⟨"-", 20, .reference "d"⟩]
      ⟨after.stream, depth⟩ := by
    refine @ReadsLinks.link _ _ _ _ 20 _ _ minus (yields_operand_of_reference rfl ?_) ?_
    · exact Token.Kind.noConfusion
    refine @ReadsLinks.link _ _ _ _ 40 _ _ times (yields_operand_of_reference rfl ?_) ?_
    · exact Token.Kind.noConfusion
    refine @ReadsLinks.link _ _ _ _ 20 _ _ minus (yields_operand_of_reference rfl ?_) .done
    exact Token.Kind.noConfusion
  have stops : grammar.bindingPower (.atEnd .unknown) < 0 := by decide
  have bound : (Bracketing.join "-" 20
      (.join "-" 20 (.operand (.reference "a"))
        (.join "*" 40 (.operand (.reference "b")) (.operand (.reference "c"))))
      (.operand (.reference "d"))).WellBound := by decide
  have chained (depth : Nat) : (chain grammar 0 (.reference "a")).Yields
      ⟨state.advance.stream, depth⟩ tree ⟨after.stream, depth⟩ := by
    obtain ⟨built, yields⟩ := exists_yields_of_reads (Int.le_refl 0) (reads depth)
      (fun link _ => Int.natCast_nonneg link.precedence) stops (.reference "a")
    obtain ⟨links, _, unique, _, _, reference⟩ :=
      (chain_yields_reference grammar).1 0 _ _ _ _ (Int.le_refl 0) yields
    have same : built = tree := by
      rw [reference, ← unique _ (reads depth)]
      exact congrArg Bracketing.expr (Bracketing.eq_reference bound).symm
    exact same ▸ yields
  have whole : (expr grammar).Yields state tree after :=
    yields_expr.mpr ⟨rfl, .reference "a", _, _, yields_operand_of_reference rfl (by decide),
      chained 1, rfl⟩
  obtain ⟨links, reads', _, _, _, reference⟩ :=
    (chain_yields_reference grammar).1 0 _ _ _ _ (Int.le_refl 0) (chained 0)
  obtain ⟨first, links', _, _, _, _, _, _, reference', wellBound⟩ :=
    (chain_yields_reference grammar).2 _ _ _ whole
  exact ⟨chained 0, whole, ⟨links, reads', reference⟩, first, links', reference', wellBound⟩

end Parser

end OpLang
