/-
**The one bracketing of a chain.**

A chain is an operand and links after it, each an operator with its precedence and one more operand.
A `Bracketing` is a way to bracket a chain: a tree whose leaves are the operands, which are not
looked into, and whose nodes are the operators.

* `Bracketing.reference`: the reference bracketing. A lone operand is itself; any other chain is
  split at the rightmost of its weakest operators (`WeakestSplit`), and both sides are bracketed in
  the same way.
* `Bracketing.WellBound`: below every operator stand, on the left, operators that bind at least as
  tightly, and on the right, operators that bind more tightly.
* `Bracketing.eq_reference`: a well-bound bracketing is the reference bracketing of its chain. So
  `reference` and `WellBound` say the same, the one from the top down and the other node by node.
* `Bracketing.graft`: a bracketing put in the place of the first operand of another one, which is
  how the operators of a chain are folded one after the other.
-/

import OpLang.Expr

namespace OpLang

/-- An operator of a chain, its precedence, and the operand after it. -/
structure Link where
  operator : String
  precedence : Nat
  operand : Expr

/-! ### Splitting at the weakest operator -/

/-- A chain of links cut at the rightmost of its weakest operators. -/
structure WeakestSplit (links : List Link) where
  front : List Link
  weakest : Link
  back : List Link
  join : links = front ++ weakest :: back
  front_le : ∀ link ∈ front, weakest.precedence ≤ link.precedence
  back_lt : ∀ link ∈ back, weakest.precedence < link.precedence

namespace WeakestSplit

/-- The cut of one link and those after it. -/
def of (link : Link) : (links : List Link) → WeakestSplit (link :: links)
  | [] => ⟨[], link, [], rfl, nofun, nofun⟩
  | next :: others =>
    let rest := of next others
    if weaker : link.precedence < rest.weakest.precedence then
      { front := []
        weakest := link
        back := next :: others
        join := rfl
        front_le := nofun
        back_lt := by
          intro other member
          rw [rest.join, List.mem_append, List.mem_cons] at member
          rcases member with before | rfl | behind
          · exact Nat.lt_of_lt_of_le weaker (rest.front_le other before)
          · exact weaker
          · exact Nat.lt_trans weaker (rest.back_lt other behind) }
    else
      { front := link :: rest.front
        weakest := rest.weakest
        back := rest.back
        join := congrArg (link :: ·) rest.join
        front_le := by
          intro other member
          rcases List.mem_cons.mp member with rfl | before
          · exact Nat.not_lt.mp weaker
          · exact rest.front_le other before
        back_lt := rest.back_lt }

/-- **A chain has one rightmost weakest operator.** -/
theorem unique {links : List Link} (split split' : WeakestSplit links) : split = split' := by
  obtain ⟨front, weakest, back, join, front_le, back_lt⟩ := split
  obtain ⟨front', weakest', back', join', front_le', back_lt'⟩ := split'
  have equal : front ++ weakest :: back = front' ++ weakest' :: back' := join.symm.trans join'
  -- Were one cut left of the other, each of the two operators would be weaker than the other.
  rcases List.append_eq_append_iff.mp equal with ⟨between, rfl, right⟩ | ⟨between, rfl, right⟩
  · cases between with
    | nil =>
      cases right
      simp
    | cons link others =>
      obtain ⟨rfl, rfl⟩ := List.cons_eq_cons.mp right
      have later := back_lt weakest' (by simp)
      have earlier := front_le' weakest (by simp)
      omega
  · cases between with
    | nil =>
      cases right
      simp
    | cons link others =>
      obtain ⟨rfl, rfl⟩ := List.cons_eq_cons.mp right
      have later := back_lt' weakest (by simp)
      have earlier := front_le weakest' (by simp)
      omega

theorem front_length {links : List Link} (split : WeakestSplit links) :
    split.front.length < links.length := by
  have total := congrArg List.length split.join
  simp only [List.length_append, List.length_cons] at total
  omega

theorem back_length {links : List Link} (split : WeakestSplit links) :
    split.back.length < links.length := by
  have total := congrArg List.length split.join
  simp only [List.length_append, List.length_cons] at total
  omega

end WeakestSplit

/-! ### Bracketings -/

/-- A bracketed chain: operands, and operators that join two bracketings. -/
inductive Bracketing where
  | operand (expr : Expr)
  | join (operator : String) (precedence : Nat) (left right : Bracketing)

namespace Bracketing

/-- The expression that a bracketing stands for. -/
def expr : Bracketing → Expr
  | operand expr => expr
  | join operator _ left right => .binary operator left.expr right.expr

/-- The precedence of the operator at the top, if there is one. -/
def precedence? : Bracketing → Option Nat
  | operand _ => none
  | join _ precedence _ _ => some precedence

/-- The first operand of the chain that is bracketed. -/
def first : Bracketing → Expr
  | operand expr => expr
  | join _ _ left _ => left.first

/-- The links of the chain that is bracketed. -/
def links : Bracketing → List Link
  | operand _ => []
  | join operator precedence left right =>
    left.links ++ ⟨operator, precedence, right.first⟩ :: right.links

/-- Whether every operator is bracketed by tightness: no looser operator stands below it on its
left, and only tighter ones below it on its right. -/
def WellBound : Bracketing → Prop
  | operand _ => True
  | join _ precedence left right =>
    left.WellBound ∧ right.WellBound ∧ (∀ below ∈ left.precedence?, precedence ≤ below) ∧
      ∀ below ∈ right.precedence?, precedence < below

instance decidableWellBound : (bracketing : Bracketing) → Decidable bracketing.WellBound
  | operand _ => inferInstanceAs (Decidable True)
  | join _ precedence left right =>
    have := decidableWellBound left
    have := decidableWellBound right
    inferInstanceAs (Decidable (left.WellBound ∧ right.WellBound ∧
      (∀ below ∈ left.precedence?, precedence ≤ below) ∧
      ∀ below ∈ right.precedence?, precedence < below))

/-- **The reference bracketing** of a chain: a lone operand, or the rightmost of the weakest
operators between the reference bracketings of both sides. -/
def reference (first : Expr) : List Link → Bracketing
  | [] => operand first
  | link :: links =>
    let split := WeakestSplit.of link links
    join split.weakest.operator split.weakest.precedence (reference first split.front)
      (reference split.weakest.operand split.back)
termination_by links => links.length
decreasing_by
  · exact split.front_length
  · exact split.back_length

/-! ### What the reference bracketing brackets -/

@[simp]
theorem reference_nil (first : Expr) : reference first [] = operand first := by
  rw [reference]

/-- The reference bracketing at a known cut. -/
theorem reference_split (first : Expr) {links : List Link} (split : WeakestSplit links) :
    reference first links =
      join split.weakest.operator split.weakest.precedence (reference first split.front)
        (reference split.weakest.operand split.back) := by
  cases links with
  | nil => exact absurd split.join (by simp)
  | cons link others => rw [reference, split.unique (WeakestSplit.of link others)]

theorem first_reference (first : Expr) (links : List Link) :
    (reference first links).first = first := by
  fun_induction reference first links with
  | case1 first => rfl
  | case2 first link links split front back => exact front

theorem links_reference (first : Expr) (links : List Link) :
    (reference first links).links = links := by
  fun_induction reference first links with
  | case1 first => rfl
  | case2 first link links split front back =>
    show (reference first split.front).links ++ ⟨_, _, (reference _ split.back).first⟩ ::
      (reference _ split.back).links = link :: links
    rw [front, back, first_reference]
    exact split.join.symm

/-- The operator at the top of a bracketing is one of its chain. -/
theorem exists_link_of_precedence? {bracketing : Bracketing} {precedence : Nat}
    (top : bracketing.precedence? = some precedence) :
    ∃ link ∈ bracketing.links, link.precedence = precedence := by
  cases bracketing with
  | operand expr => cases top
  | join operator precedence' left right =>
    refine ⟨⟨operator, precedence', right.first⟩, ?_, Option.some.inj top⟩
    exact List.mem_append_right _ List.mem_cons_self

/-- **The reference bracketing is well bound.** -/
theorem wellBound_reference (first : Expr) (links : List Link) :
    (reference first links).WellBound := by
  fun_induction reference first links with
  | case1 first => trivial
  | case2 first link links split front back =>
    refine ⟨front, back, ?_, ?_⟩
    · intro below top
      obtain ⟨other, member, rfl⟩ := exists_link_of_precedence? top
      rw [links_reference] at member
      exact split.front_le other member
    · intro below top
      obtain ⟨other, member, rfl⟩ := exists_link_of_precedence? top
      rw [links_reference] at member
      exact split.back_lt other member

/-! ### Well-bound bracketings -/

/-- A bound on the operator at the top of a well-bound bracketing bounds them all. -/
theorem WellBound.all_links {bracketing : Bracketing} (wellBound : bracketing.WellBound)
    {minimum : Nat} (above : ∀ top ∈ bracketing.precedence?, minimum ≤ top) :
    ∀ link ∈ bracketing.links, minimum ≤ link.precedence := by
  induction bracketing with
  | operand expr => exact fun link none => absurd none List.not_mem_nil
  | join operator precedence left right ihLeft ihRight =>
    obtain ⟨boundLeft, boundRight, aboveLeft, aboveRight⟩ := wellBound
    have enough : minimum ≤ precedence := above precedence rfl
    intro link member
    rcases List.mem_append.mp member with inLeft | here
    · exact ihLeft boundLeft (fun top atTop => Nat.le_trans enough (aboveLeft top atTop)) link inLeft
    · rcases List.mem_cons.mp here with rfl | inRight
      · exact enough
      · refine ihRight boundRight (fun top atTop => ?_) link inRight
        exact Nat.le_trans enough (Nat.le_of_lt (aboveRight top atTop))

/-- **A well-bound bracketing is the reference bracketing of its chain.** -/
theorem eq_reference {bracketing : Bracketing} (wellBound : bracketing.WellBound) :
    bracketing = reference bracketing.first bracketing.links := by
  induction bracketing with
  | operand expr => rw [links, reference_nil, first]
  | join operator precedence left right ihLeft ihRight =>
    obtain ⟨boundLeft, boundRight, aboveLeft, aboveRight⟩ := wellBound
    let split : WeakestSplit (join operator precedence left right).links :=
      ⟨left.links, ⟨operator, precedence, right.first⟩, right.links, rfl,
        boundLeft.all_links aboveLeft, boundRight.all_links aboveRight⟩
    rw [reference_split _ split]
    show join operator precedence left right =
      join operator precedence (reference left.first left.links)
        (reference right.first right.links)
    rw [← ihLeft boundLeft, ← ihRight boundRight]

/-! ### Grafting -/

/-- The bracketing `whole` with `inner` in the place of its first operand. -/
def graft (inner : Bracketing) : Bracketing → Bracketing
  | operand _ => inner
  | join operator precedence left right => join operator precedence (graft inner left) right

@[simp]
theorem first_graft (inner whole : Bracketing) : (graft inner whole).first = inner.first := by
  induction whole with
  | operand expr => rfl
  | join operator precedence left right ihLeft _ => exact ihLeft

@[simp]
theorem links_graft (inner whole : Bracketing) :
    (graft inner whole).links = inner.links ++ whole.links := by
  induction whole with
  | operand expr => simp [graft, links]
  | join operator precedence left right ihLeft _ => simp [graft, links, ihLeft]

/-- Grafting what stands for the first operand leaves the expression as it is. -/
theorem expr_graft {inner whole : Bracketing} (same : inner.expr = whole.first) :
    (graft inner whole).expr = whole.expr := by
  induction whole with
  | operand expr => exact same
  | join operator precedence left right ihLeft _ => simp only [graft, expr, ihLeft same]

/-- A graft is well bound where the first operator after it does not bind more tightly. -/
theorem WellBound.graft {inner whole : Bracketing} (boundInner : inner.WellBound)
    (bound : whole.WellBound)
    (looser : ∀ link ∈ whole.links.head?, ∀ top ∈ inner.precedence?, link.precedence ≤ top) :
    (graft inner whole).WellBound := by
  induction whole with
  | operand expr => exact boundInner
  | join operator precedence left right ihLeft _ =>
    obtain ⟨boundLeft, boundRight, aboveLeft, aboveRight⟩ := bound
    cases left with
    | operand expr =>
      refine ⟨boundInner, boundRight, ?_, aboveRight⟩
      exact looser ⟨operator, precedence, right.first⟩ (by simp [links])
    | join operator' precedence' left' right' =>
      refine ⟨ihLeft boundLeft fun link head => looser link ?_, boundRight, aboveLeft, aboveRight⟩
      rw [links, List.head?_append, Option.mem_def.mp head]
      rfl

end Bracketing

end OpLang
