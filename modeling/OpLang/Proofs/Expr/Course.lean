/-
**The course of a chain, whatever its threshold.**

A chain takes tokens for operators, and where the token behind an operand binds tighter than the one
before it, the operand is extended by a chain of its own, at a threshold one higher. `Course` says what a
chain does at its own level, move by move, from the tokens alone; it refers to how operands are read, and
not to `chain`. A threshold may be any integer. Below zero a chain also takes tokens that are no
operators, the last one included, which stays when it is taken.

* `Course.reply_eq`, `exists_course`: from every state a chain has a course, a finite one, and what comes
  out of it is the reply of the chain.
* `Course.inOrder`: along a course the thresholds of inner chains rise, within the bounds of precedences,
  and no token is taken that is looser than the threshold of the chain.
* `Course.exists_reads`: where a chain yields, the tokens that it took are the operators of the links that
  it read.
* `chain_isSafe`: this for every chain. It takes a token for each step, and with a threshold below zero it
  always fails, because nothing is looser than that.
-/

import OpLang.Proofs.Expr.Effort
import OpLang.Proofs.Expr.Fails

namespace OpLang.Parser

/-! ### Courses -/

/-- What a chain does at its own level. -/
inductive ChainMove where
  /-- A token is taken for an operator. -/
  | takes (token : Token)
  /-- A chain with the threshold `minimum` calls an inner one, with the threshold one above `power`, the
  binding power of the token that it took last. -/
  | calls (minimum power : Int)
deriving DecidableEq

/-- The token that a move takes. -/
def ChainMove.token? : ChainMove → Option Token
  | .takes token => some token
  | .calls _ _ => none

/-- **The course of a chain:** the moves of a chain with a threshold and a left side from a state on, those
of inner chains among them, what comes out, and where the chain stops. -/
inductive Course (grammar : Grammar) :
    Int → Expr → ParseState → List ChainMove → Except Diagnostic Expr → ParseState → Prop where
  /-- A chain stops before a token that is looser than its threshold. -/
  | stops {minimum : Int} {left : Expr} {state : ParseState}
      (loose : grammar.bindingPower state.current < minimum) :
      Course grammar minimum left state [] (.ok left) state
  /-- It fails if no operand follows the token that it takes. -/
  | fails {minimum : Int} {left : Expr} {state after : ParseState} {diagnostic : Diagnostic}
      (tight : minimum ≤ grammar.bindingPower state.current)
      (operand : (operand grammar).Fails state.advance diagnostic after) :
      Course grammar minimum left state [.takes state.current] (.error diagnostic) after
  /-- It joins an operand that no tighter token follows, and goes on. -/
  | joins {minimum : Int} {left first : Expr} {state middle after : ParseState}
      {moves : List ChainMove} {result : Except Diagnostic Expr}
      (tight : minimum ≤ grammar.bindingPower state.current)
      (operand : (operand grammar).Yields state.advance first middle)
      (loose : grammar.bindingPower middle.current ≤ grammar.bindingPower state.current)
      (others : Course grammar minimum (.binary state.current.value left first) middle moves result
        after) :
      Course grammar minimum left state (.takes state.current :: moves) result after
  /-- It calls an inner chain to extend an operand that a tighter token follows, and fails with it. -/
  | failsInside {minimum : Int} {left first : Expr} {state middle after : ParseState}
      {moves : List ChainMove} {diagnostic : Diagnostic}
      (tight : minimum ≤ grammar.bindingPower state.current)
      (operand : (operand grammar).Yields state.advance first middle)
      (tighter : grammar.bindingPower state.current < grammar.bindingPower middle.current)
      (inner : Course grammar (grammar.bindingPower state.current + 1) first middle moves
        (.error diagnostic) after) :
      Course grammar minimum left state
        (.takes state.current :: .calls minimum (grammar.bindingPower state.current) :: moves)
        (.error diagnostic) after
  /-- It joins what the inner chain yields, and goes on. -/
  | joinsExtended {minimum : Int} {left first right : Expr} {state middle last after : ParseState}
      {moves moves' : List ChainMove} {result : Except Diagnostic Expr}
      (tight : minimum ≤ grammar.bindingPower state.current)
      (operand : (operand grammar).Yields state.advance first middle)
      (tighter : grammar.bindingPower state.current < grammar.bindingPower middle.current)
      (inner : Course grammar (grammar.bindingPower state.current + 1) first middle moves (.ok right)
        last)
      (others : Course grammar minimum (.binary state.current.value left right) last moves' result
        after) :
      Course grammar minimum left state
        (.takes state.current :: .calls minimum (grammar.bindingPower state.current) ::
          (moves ++ moves')) result after

variable {grammar : Grammar} {minimum : Int} {left : Expr} {state after : ParseState}
variable {moves : List ChainMove} {result : Except Diagnostic Expr}

/-! ### Courses and replies -/

/-- Behind an operand that is joined a chain replies as the rest of it does. -/
theorem chain_of_joined {first right : Expr} {middle last : ParseState}
    (tight : minimum ≤ grammar.bindingPower state.current)
    (operand : (operand grammar).Yields state.advance first middle)
    (extension : (extended grammar (grammar.bindingPower state.current) first).Yields middle right
      last) :
    (chain grammar minimum left state).result =
        (chain grammar minimum (.binary state.current.value left right) last).result ∧
      (chain grammar minimum left state).after =
        (chain grammar minimum (.binary state.current.value left right) last).after := by
  obtain ⟨trace, operand⟩ := operand
  obtain ⟨trace', extension⟩ := extension
  conv => enter [1, 1]; rw [chain_eq]
  conv => enter [2, 1]; rw [chain_eq]
  rw [current_bind]
  simp only [if_neg (Int.not_lt.mpr tight)]
  rw [advance_bind, bind_of_parsed operand, bind_of_parsed extension, record_bind]
  simp

/-- **What comes out of a course is the reply of the chain.** -/
theorem Course.reply_eq (course : Course grammar minimum left state moves result after) :
    (chain grammar minimum left state).result = result ∧
      (chain grammar minimum left state).after = after := by
  induction course with
  | stops loose => exact yields_iff_result.mp (yields_chain.mpr (.inl ⟨loose, rfl, rfl⟩))
  | fails tight operand => exact fails_iff_result.mp (fails_chain.mpr ⟨tight, .inl operand⟩)
  | joins tight operand loose _ ih =>
    obtain ⟨sameResult, sameAfter⟩ :=
      chain_of_joined tight operand (yields_extended.mpr (.inr ⟨loose, rfl, rfl⟩))
    exact ⟨sameResult.trans ih.1, sameAfter.trans ih.2⟩
  | failsInside tight operand tighter _ ih =>
    have extension := fails_extended.mpr ⟨tighter, fails_iff_result.mpr ih⟩
    exact fails_iff_result.mp (fails_chain.mpr ⟨tight, .inr ⟨_, _, operand, .inl extension⟩⟩)
  | joinsExtended tight operand tighter _ _ ihInner ih =>
    have extension := yields_extended.mpr (.inl ⟨tighter, yields_iff_result.mpr ihInner⟩)
    obtain ⟨sameResult, sameAfter⟩ := chain_of_joined tight operand extension
    exact ⟨sameResult.trans ih.1, sameAfter.trans ih.2⟩

/-- **Every chain has a course.** What is to come behind an operand is less than before it, also where the
token before the operand is the last one and stays, since no operand is read there. -/
theorem exists_course (grammar : Grammar) (minimum : Int) (left : Expr) (state : ParseState) :
    ∃ moves result after, Course grammar minimum left state moves result after := by
  induction tokens : state.remaining using Nat.strongRecOn generalizing minimum left state with
  | ind tokens ih =>
    subst tokens
    by_cases loose : grammar.bindingPower state.current < minimum
    · exact ⟨_, _, _, .stops loose⟩
    have tight := Int.not_lt.mp loose
    cases reply : operand grammar state.advance with
    | failed diagnostic after trace => exact ⟨_, _, _, .fails tight ⟨trace, reply⟩⟩
    | parsed first middle trace =>
      have operand : (operand grammar).Yields state.advance first middle := ⟨trace, reply⟩
      have fewer : middle.remaining < state.remaining :=
        Nat.lt_of_lt_of_le (remaining_of_yields_operand operand) state.remaining_advance_le
      by_cases tighter : grammar.bindingPower state.current < grammar.bindingPower middle.current
      · obtain ⟨moves, result, last, inner⟩ := ih _ fewer _ first middle rfl
        cases result with
        | error diagnostic => exact ⟨_, _, _, .failsInside tight operand tighter inner⟩
        | ok right =>
          have notMore := remaining_of_yields_chain (yields_iff_result.mpr inner.reply_eq)
          obtain ⟨moves', result, after, others⟩ :=
            ih _ (Nat.lt_of_le_of_lt notMore fewer) minimum _ last rfl
          exact ⟨_, _, _, .joinsExtended tight operand tighter inner others⟩
      · obtain ⟨moves, result, after, others⟩ := ih _ fewer minimum _ middle rfl
        exact ⟨_, _, _, .joins tight operand (Int.not_lt.mp tighter) others⟩

/-! ### Moves -/

/-- Whether a move is one that a chain with a threshold, or an inner chain of it, may make: it takes no
token that is looser than the threshold, and a chain whose threshold is not lower calls one with a higher
threshold, that of a precedence. -/
def ChainMove.InOrder (grammar : Grammar) (threshold : Int) : ChainMove → Prop
  | .takes token => threshold ≤ grammar.bindingPower token
  | .calls minimum power =>
    threshold ≤ minimum ∧ minimum < power + 1 ∧ 0 ≤ power + 1 ∧ power + 1 ≤ 65535

/-- A move of an inner chain is in order for the chain that calls it. -/
theorem ChainMove.InOrder.mono {move : ChainMove} {threshold threshold' : Int}
    (inOrder : move.InOrder grammar threshold) (lower : threshold' ≤ threshold) :
    move.InOrder grammar threshold' := by
  cases move with
  | takes token => exact Int.le_trans lower inOrder
  | calls minimum power => exact ⟨Int.le_trans lower inOrder.1, inOrder.2⟩

/-- Calling an inner chain between an operator and a tighter one is in order. -/
theorem ChainMove.inOrder_calls {middle : ParseState}
    (tight : minimum ≤ grammar.bindingPower state.current)
    (tighter : grammar.bindingPower state.current < grammar.bindingPower middle.current) :
    (ChainMove.calls minimum (grammar.bindingPower state.current)).InOrder grammar minimum := by
  have lower := (grammar.bindingPower_bounds state.current).1
  have upper := (grammar.bindingPower_bounds middle.current).2
  exact ⟨Int.le_refl _, by omega, by omega, by omega⟩

/-- **The moves of a chain are in order.** -/
theorem Course.inOrder (course : Course grammar minimum left state moves result after) :
    ∀ move ∈ moves, move.InOrder grammar minimum := by
  induction course with
  | stops _ => exact fun _ none => absurd none List.not_mem_nil
  | fails tight _ => exact List.forall_mem_singleton.mpr tight
  | joins tight _ _ _ ih => exact List.forall_mem_cons.mpr ⟨tight, ih⟩
  | failsInside tight _ tighter _ ih =>
    have called := ChainMove.inOrder_calls tight tighter
    refine List.forall_mem_cons.mpr ⟨tight, List.forall_mem_cons.mpr ⟨called, ?_⟩⟩
    exact fun move inside => (ih move inside).mono (by omega)
  | joinsExtended tight _ tighter _ _ ihInner ih =>
    have called := ChainMove.inOrder_calls tight tighter
    refine List.forall_mem_cons.mpr ⟨tight, List.forall_mem_cons.mpr ⟨called, ?_⟩⟩
    refine List.forall_mem_append.mpr ⟨?_, ih⟩
    exact fun move inside => (ihInner move inside).mono (by omega)

/-- A chain that yields stops before a token that is looser than its threshold. -/
theorem Course.loose (course : Course grammar minimum left state moves result after) {tree : Expr}
    (yields : result = .ok tree) : grammar.bindingPower after.current < minimum := by
  induction course with
  | stops loose => exact loose
  | fails _ _ => cases yields
  | joins _ _ _ _ ih => exact ih yields
  | failsInside _ _ _ _ _ => cases yields
  | joinsExtended _ _ _ _ _ _ ih => exact ih yields

/-- Nothing is looser than a threshold below zero, so a chain that yields has none. -/
theorem Course.minimum_nonneg (course : Course grammar minimum left state moves result after)
    {tree : Expr} (yields : result = .ok tree) : 0 ≤ minimum := by
  have loose := course.loose yields
  have lower := (grammar.bindingPower_bounds after.current).1
  omega

/-- **The tokens taken are the operators of the links read,** where a chain yields. -/
theorem Course.exists_reads (course : Course grammar minimum left state moves result after)
    {tree : Expr} (yields : result = .ok tree) :
    ∃ links, ReadsLinks grammar state links after ∧
      (moves.filterMap ChainMove.token?).map (fun token => (token.value, grammar.bindingPower token)) =
        links.map fun link => (link.operator, (link.precedence : Int)) := by
  have valid := course.minimum_nonneg yields
  induction course generalizing tree with
  | stops _ => exact ⟨[], .done, rfl⟩
  | fails _ _ => cases yields
  | failsInside _ _ _ _ _ => cases yields
  | @joins minimum left first state middle after moves result tight operand _ _ ih =>
    obtain ⟨precedence, joins⟩ := Grammar.joins_of_bindingPower (Int.le_trans valid tight)
    obtain ⟨links, reads, same⟩ := ih yields valid
    refine ⟨_, .link joins operand reads, ?_⟩
    simp [ChainMove.token?, same, Grammar.bindingPower_of_joins joins]
  | @joinsExtended minimum left first right state middle last after moves moves' result tight operand
      tighter inner _ ihInner ih =>
    obtain ⟨precedence, joins⟩ := Grammar.joins_of_bindingPower (Int.le_trans valid tight)
    obtain ⟨links, reads, same⟩ := ihInner rfl (inner.minimum_nonneg rfl)
    obtain ⟨links', reads', same'⟩ := ih yields valid
    refine ⟨_, .link joins operand (reads.append reads'), ?_⟩
    simp [ChainMove.token?, List.filterMap_cons, same, same', Grammar.bindingPower_of_joins joins]

/-! ### Every threshold -/

/-- Within the bounds of precedences, adding one in words of 32 bits is adding one. -/
theorem word_add_one {power : Int} (lower : 0 ≤ power + 1) (upper : power + 1 ≤ 65535) :
    (Int32.ofInt power + 1).toInt = power + 1 := by
  have word : (Int32.ofInt power).toInt = power :=
    Int32.toInt_ofInt_of_le (by omega) (by omega)
  rw [Int32.toInt_add, word, Int32.toInt_one, Int.bmod_eq_of_le] <;> omega

/-- **A chain is safe, whatever its threshold is.** Its steps are paid with the tokens it takes. It has a
course, and every course of it gives its reply. Along the course each inner chain has a threshold above
that of its caller and within the bounds of precedences, where adding one does not overflow, and no token
is taken that is looser than the threshold of the chain. Where it yields, it stops before a looser token,
and the tokens that it took are the operators of the links that it read. Below zero it fails. -/
theorem chain_isSafe (grammar : Grammar) (minimum : Int) (left : Expr) (state : ParseState) :
    let reply := chain grammar minimum left state
    reply.trace.length + reply.after.remaining ≤ state.remaining ∧
    (∃ moves, Course grammar minimum left state moves reply.result reply.after) ∧
    (∀ moves result after, Course grammar minimum left state moves result after →
      result = reply.result ∧ after = reply.after ∧
      (∀ caller power, .calls caller power ∈ moves →
        caller < power + 1 ∧ 0 ≤ power + 1 ∧ power + 1 ≤ 65535 ∧
          (Int32.ofInt power + 1).toInt = power + 1) ∧
      (∀ token, .takes token ∈ moves → minimum ≤ grammar.bindingPower token) ∧
      ∀ tree, result = .ok tree → grammar.bindingPower after.current < minimum ∧
        ∃ links, ReadsLinks grammar state links after ∧
          (moves.filterMap ChainMove.token?).map
              (fun token => (token.value, grammar.bindingPower token)) =
            links.map fun link => (link.operator, (link.precedence : Int))) ∧
    (minimum ≤ -1 → ∃ diagnostic, reply.result = .error diagnostic) := by
  intro reply
  obtain ⟨moves, result, after, course⟩ := exists_course grammar minimum left state
  obtain ⟨rfl, rfl⟩ := course.reply_eq
  refine ⟨chain_steps_le grammar minimum left state, ⟨moves, course⟩, ?_, fun below => ?_⟩
  · intro moves result after course
    refine ⟨course.reply_eq.1.symm, course.reply_eq.2.symm, fun caller power member => ?_,
      fun token member => course.inOrder _ member, fun tree yields => ?_⟩
    · obtain ⟨_, rises, lower, upper⟩ := course.inOrder _ member
      exact ⟨rises, lower, upper, word_add_one lower upper⟩
    · exact ⟨course.loose yields, course.exists_reads yields⟩
  · cases result : reply.result with
    | error diagnostic => exact ⟨diagnostic, rfl⟩
    | ok tree =>
      have valid := course.minimum_nonneg result
      omega

/-- The tokens of `+ b * c`. -/
def sumOfProductRest : List Token :=
  [.unplaced .operator "+", .unplaced .identifier "b", .unplaced .operator "*",
    .unplaced .identifier "c"]

/-- With the least threshold of 32 bits, the chain in `a + b * c` takes both operators and then the end,
where it fails. The product is read by an inner chain, at the threshold 21. -/
theorem chain_isSafe_sumOfProductRest :
    let grammar := Grammar.ofTable .standard
    let state := ParseState.ofTokens sumOfProductRest
    let minimum : Int := Int32.minValue.toInt
    let reply := chain grammar minimum (.reference "a") state
    let moves : List ChainMove := [.takes (.unplaced .operator "+"), .calls minimum 20,
      .takes (.unplaced .operator "*"), .takes (.atEnd .unknown)]
    Course grammar minimum (.reference "a") state moves reply.result reply.after ∧
      reply.result = .error ⟨.noExpression "EOF", .unknown⟩ ∧ reply.trace.length ≤ 4 ∧
      minimum < 20 + 1 := by
  intro grammar state minimum reply moves
  let last := state.advance.advance.advance.advance
  have plus : grammar.bindingPower state.current = 20 := by decide
  have inner : Course grammar (grammar.bindingPower state.current + 1) (.reference "b")
      state.advance.advance [.takes (.unplaced .operator "*")]
      (.ok (.binary "*" (.reference "b") (.reference "c"))) last :=
    .joins (by decide) (yields_operand_of_reference rfl (by decide)) (by decide)
      (.stops (by decide))
  have others : Course grammar minimum
      (.binary "+" (.reference "a") (.binary "*" (.reference "b") (.reference "c"))) last
      [.takes (.atEnd .unknown)] (.error ⟨.noExpression "EOF", .unknown⟩) last :=
    .fails (by decide) (fails_operand.mpr (.inr (.inr (.inr ⟨nofun, nofun, nofun, rfl, rfl⟩))))
  have course : Course grammar minimum (.reference "a") state moves
      (.error ⟨.noExpression "EOF", .unknown⟩) last := by
    have whole := Course.joinsExtended (by decide)
      (yields_operand_of_reference rfl (by decide)) (by decide) inner others
    rw [plus] at whole
    exact whole
  obtain ⟨steps, _, courses, _⟩ := chain_isSafe grammar minimum (.reference "a") state
  obtain ⟨result, after, calls, _⟩ := courses _ _ _ course
  obtain ⟨rises, _⟩ := calls minimum 20 (by decide)
  refine ⟨result ▸ after ▸ course, result.symm, ?_, rises⟩
  exact Nat.le_trans (Nat.le_add_right _ _) steps

end OpLang.Parser
