/-
**Prototypes, functions and items.**

An item is one statement of a program: a definition, an external declaration, or an expression on
its own, which is kept as the body of a function without name or parameters. Completing an item is
an event, and the event says what kind of item it was.
-/

import OpLang.Expr

namespace OpLang

/-- A function's name and the names of its parameters, in order and with repetitions kept. -/
structure Prototype where
  name : String
  parameters : List String
deriving DecidableEq, Inhabited, Repr

namespace Prototype

/-- The name of the function around an expression that stands on its own. -/
def anonymousName : String := "__anon_expr"

/-- The prototype of the function around an expression that stands on its own. -/
def anonymous : Prototype := ⟨anonymousName, []⟩

/-- Whether a prototype is that of an expression that stands on its own. -/
def isAnonymous (prototype : Prototype) : Bool :=
  prototype.name == anonymousName && prototype.parameters.isEmpty

/-- Only the anonymous prototype is anonymous. -/
theorem isAnonymous_iff {prototype : Prototype} :
    prototype.isAnonymous = true ↔ prototype = anonymous := by
  obtain ⟨name, parameters⟩ := prototype
  simp [isAnonymous, anonymous, List.isEmpty_iff]

end Prototype

/-- A prototype with a body. -/
structure Function where
  prototype : Prototype
  body : Expr
deriving Inhabited, Repr

/-- One statement of a program. -/
inductive Item where
  | definition (function : Function)
  | external (prototype : Prototype)
  | expression (function : Function)
deriving Inhabited, Repr

/-- What is announced when an item is complete. -/
inductive Event where
  | definition
  | external
  | expression
deriving DecidableEq, Repr

/-- The text of an announcement. -/
def Event.text : Event → String
  | .definition => "Parsed a function definition."
  | .external => "Parsed an extern."
  | .expression => "Parsed a top-level expression."

/-- Whether two functions have the same prototype and bodies of the same value. -/
def Function.sameValue (function other : Function) : Bool :=
  function.prototype == other.prototype && function.body.sameValue other.body

namespace Item

/-- The event of an item's completion. -/
def event : Item → Event
  | .definition _ => .definition
  | .external _ => .external
  | .expression _ => .expression

/-- The prototype of an item. -/
def prototype : Item → Prototype
  | .definition function => function.prototype
  | .external prototype => prototype
  | .expression function => function.prototype

/-- The body of an item that has one. -/
def body? : Item → Option Expr
  | .definition function => some function.body
  | .external _ => none
  | .expression function => some function.body

/-- Whether two items are of the same kind and agree in prototype and value of the body. -/
def sameValue : Item → Item → Bool
  | .definition function, .definition function' => function.sameValue function'
  | .external prototype, .external prototype' => prototype == prototype'
  | .expression function, .expression function' => function.sameValue function'
  | _, _ => false

end Item

end OpLang
