import ComponentLoader.Script.Cursor

/-
  This file defines the scope in which a rule of the
  grammar applies and the record of the rules that call
  each other.

  The grammar is written without recursion: a rule gets
  the record and calls the others through it.  The record
  is closed over a number of levels elsewhere.

  Key definitions include:
    * `Script.Scope`
    * `Script.Rules`
-/

namespace ComponentLoader
namespace Script

------------------------------------------------------------
-- Scopes
------------------------------------------------------------

/- What surrounds a phrase and changes how it is read. -/
structure Scope where
  /- Type annotations and declarations are read. -/
  types : Bool
  /- Markup elements are read as expressions. -/
  markup : Bool
  /- `in` is an operator. -/
  inOk : Bool := true
  /- `yield` is an operator. -/
  generator : Bool := false
  /- `await` always is an operator. -/
  async : Bool := false
  /- Among the parameters of a function. -/
  inParams : Bool := false
  /- In the head of a loop. -/
  inLoopHead : Bool := false
  /- Inside an outcome of a condition. -/
  inCondition : Bool := false
  /- A colon that belongs to a condition is to come. -/
  colonAwaited : Bool := false
  /- Inside a declaration without code. -/
  ambient : Bool := false
  /- An inferred type may have a condition after it. -/
  conditionalOk : Bool := true
  /- `super` has properties. -/
  superOk : Bool := false
  /- Where an arrow function may start. -/
  arrowAt : Nat := 0

namespace Scope

/- The scope of a function's body. -/
def ofFunction
    (sc : Scope)
    (async generator : Bool) : Scope :=
  { sc with
    inOk := true
    generator := generator
    async := async
    inParams := false
    inLoopHead := false
    colonAwaited := false
    conditionalOk := true }

/- The scope of a function's parameters. -/
def ofParams
    (sc : Scope) : Scope :=
  { sc with inParams := true }

/- The scope inside brackets. -/
def bracketed
    (sc : Scope) : Scope :=
  { sc with inOk := true, colonAwaited := false }

/- The scope in which `in` is an operator. -/
def withIn
    (sc : Scope) : Scope :=
  { sc with inOk := true }

/- The scope of the first outcome of a condition. -/
def consequent
    (sc : Scope) : Scope :=
  { sc with
    inOk := true, inCondition := true, colonAwaited := true }

/- The scope of the second outcome of a condition. -/
def alternative
    (sc : Scope) : Scope :=
  { sc with inCondition := true, colonAwaited := false }

/- The scope of the members of an object or a class. -/
def ofMembers
    (sc : Scope) : Scope :=
  { sc with superOk := true }

/- The scope of a function that is no method. -/
def ofPlainFunction
    (sc : Scope) : Scope :=
  { sc with superOk := false }

/- The scope of a type in which any type may stand. -/
def anyType
    (sc : Scope) : Scope :=
  { sc with conditionalOk := true }

/- The scope of a type that is no conditional one. -/
def plainType
    (sc : Scope) : Scope :=
  { sc with conditionalOk := false }

end Scope

------------------------------------------------------------
-- Rules
------------------------------------------------------------

/- The rules of the grammar that call each other. -/
structure Rules where
  /- An expression without commas. -/
  assign : Scope → Parser Expr
  /- Operands joined by operators. -/
  binary : Scope → Parser Expr
  /- An operand with the operators around it. -/
  unary : Scope → Parser Expr
  /- What stands between operators. -/
  operand : Scope → Parser Expr
  /- `new` and what it makes; whether it has arguments. -/
  construct : Scope → Parser (Expr × Bool)
  /- A type. -/
  type : Scope → Parser Unit
  /- A type without a condition. -/
  plainType : Scope → Parser Unit
  /- What a declaration binds; whether it is a name. -/
  pattern : Scope → Parser Bool
  /- A markup element up to its last angle bracket. -/
  element : Scope → Parser Unit
  /- A decorator. -/
  decorator : Scope → Parser Decorator
  /- A statement, which may be a declaration or not. -/
  statement : Scope → Bool → Parser Shape
  /- The items of a namespace up to its closing brace. -/
  items : Scope → Parser (List Item)

/- The rules that read nothing. -/
def Rules.none : Rules :=
  { assign := fun _ => Parser.fail
    binary := fun _ => Parser.fail
    unary := fun _ => Parser.fail
    operand := fun _ => Parser.fail
    construct := fun _ => Parser.fail
    type := fun _ => Parser.fail
    plainType := fun _ => Parser.fail
    pattern := fun _ => Parser.fail
    element := fun _ => Parser.fail
    decorator := fun _ => Parser.fail
    statement := fun _ _ => Parser.fail
    items := fun _ => Parser.fail }

end Script
end ComponentLoader
