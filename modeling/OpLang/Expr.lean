/-
**Expressions.**

An expression is a number, a reference to a variable, an operator with two operands, or a call with
any number of arguments. Parentheses that only group leave no trace. `Expr.sameValue` compares
expressions as values: by shape, names and numeric equality of the numbers, so that not-a-number
differs from itself and the two zeros agree.
-/

import OpLang.Number.Binary64

namespace OpLang

/-- An expression tree. -/
inductive Expr where
  | number (value : Binary64)
  | reference (name : String)
  | binary (operator : String) (left right : Expr)
  | call (callee : String) (arguments : List Expr)
deriving Inhabited, Repr

namespace Expr

mutual

/-- Whether two expressions agree in shape, names and the numeric value of their numbers. -/
def sameValue : Expr → Expr → Bool
  | .number value, .number value' => value.numericEq value'
  | .reference name, .reference name' => name == name'
  | .binary operator left right, .binary operator' left' right' =>
    operator == operator' && left.sameValue left' && right.sameValue right'
  | .call callee arguments, .call callee' arguments' =>
    callee == callee' && sameValues arguments arguments'
  | _, _ => false

/-- Whether two lists of expressions are equally long and agree pairwise. -/
def sameValues : List Expr → List Expr → Bool
  | [], [] => true
  | first :: others, first' :: others' => first.sameValue first' && sameValues others others'
  | _, _ => false

end

end Expr

end OpLang
