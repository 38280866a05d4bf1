/-
**Writing items.**

Prototypes, functions and items are written fully bracketed, like expressions. A definition and an
expression on its own share one form, that of a function; the prototype tells them apart.
-/

import OpLang.Expr.Printer
import OpLang.Item

namespace OpLang

/-- The text of a prototype, followed by `rest`: its name and its parameters, each after a space. -/
def Prototype.write (prototype : Prototype) (rest : List Char) : List Char :=
  '(' :: (prototype.name.toList ++
    (prototype.parameters.flatMap fun parameter => ' ' :: parameter.toList) ++ ')' :: rest)

/-- The text of a function, followed by `rest`. -/
def Function.write (function : Function) (rest : List Char) : List Char :=
  "(def ".toList ++ function.prototype.write (' ' :: function.body.write (')' :: rest))

/-- The text of an item, followed by `rest`. -/
def Item.write (item : Item) (rest : List Char) : List Char :=
  match item with
  | .definition function => function.write rest
  | .external prototype => "(extern ".toList ++ prototype.write (')' :: rest)
  | .expression function => function.write rest

/-- **The text of a prototype.** -/
def Prototype.text (prototype : Prototype) : String := String.ofList (prototype.write [])

/-- **The text of a function.** -/
def Function.text (function : Function) : String := String.ofList (function.write [])

/-- **The text of an item.** -/
def Item.text (item : Item) : String := String.ofList (item.write [])

end OpLang
