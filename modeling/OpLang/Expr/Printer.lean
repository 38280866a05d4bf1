/-
**Writing expressions.**

An expression is written fully bracketed with its operator in front. `write` puts the text of an
expression before a text that follows it.
-/

import OpLang.Expr
import OpLang.Number.Shortest

namespace OpLang.Expr

mutual

/-- The text of an expression, followed by `rest`. -/
def write : Expr → List Char → List Char
  | .number value, rest => value.text ++ rest
  | .reference name, rest => name.toList ++ rest
  | .binary operator left right, rest =>
    '(' :: (operator.toList ++ ' ' :: left.write (' ' :: right.write (')' :: rest)))
  | .call callee arguments, rest =>
    "(call ".toList ++ (callee.toList ++ writeArguments arguments (')' :: rest))

/-- The texts of arguments, each after a space, followed by `rest`. -/
def writeArguments : List Expr → List Char → List Char
  | [], rest => rest
  | argument :: others, rest => ' ' :: argument.write (writeArguments others rest)

end

/-- **The text of an expression.** -/
def text (expr : Expr) : String := String.ofList (expr.write [])

end OpLang.Expr
