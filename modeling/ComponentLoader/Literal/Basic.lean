import ComponentLoader.Component.Node
import ComponentLoader.Script.Tree

/-
  This file defines object literals of a script and the
  shapes of expressions that matter to the loader.  A
  shape that does not match exactly is not recognized.

  Key definitions include:
    * `Literal`
    * `Script.Decorator.call?`
    * `Script.Class.findCall?`
    * `Script.Call.literal?`
    * `Script.Expr.importPath?`
    * `Literal.isStyleDescriptor`
-/

namespace ComponentLoader

------------------------------------------------------------
-- Object Literals
------------------------------------------------------------

/- An object literal of a script. -/
structure Literal where
  span : Span
  entries : List Script.Entry
  deriving Inhabited

namespace Script

/- The object literal that an expression is. -/
def Expr.literal? : Expr → Option Literal
  | object span entries =>
      some { span := span, entries := entries }
  | _ => none

------------------------------------------------------------
-- Decorators
------------------------------------------------------------

/- A call of a name. -/
structure Call where
  span : Span
  arguments : List Argument

/- The call that an expression is, if it calls a name. -/
def Expr.callOf?
    (callee : Text) : Expr → Option Call
  | call span (name _ n) arguments =>
      if n = callee then
        some { span := span, arguments := arguments }
      else
        none
  | _ => none

/- The call that a decorator is, if it calls a name. -/
def Decorator.call?
    (d : Decorator)
    (name : Text) : Option Call :=
  d.value.callOf? name

/- The last decorator of a class that calls a name. -/
def Class.findCall?
    (c : Class)
    (name : Text) : Option Call :=
  c.decorators.reverse.findSome? fun d => d.call? name

/- The object literal that is the first argument. -/
def Call.literal?
    (c : Call) : Option Literal :=
  match c.arguments with
  | .item value :: _ => value.literal?
  | _ => none

------------------------------------------------------------
-- Imports
------------------------------------------------------------

/-
  The path of an import: a call of the import function
  with one argument, which is a string.
-/
def Expr.importPath?
    (e : Expr) : Option Text :=
  match e.callOf? importName with
  | some { span := _, arguments := [.item (.str _ path)] } =>
      path
  | _ => none

/- Whether an expression is the name `undefined`. -/
def Expr.isUndefined : Expr → Bool
  | name _ n => n = "undefined".toList
  | _ => false

/- Whether an expression is `true` or `false`. -/
def Expr.isBool : Expr → Bool
  | bool _ _ => true
  | _ => false

end Script

------------------------------------------------------------
-- Style Descriptors
------------------------------------------------------------

/- The entry of a descriptor that says if it is scoped. -/
def scopedName : Text :=
  "scoped".toList

/- The entry of a descriptor that holds the style. -/
def styleName : Text :=
  "style".toList

namespace Literal

/- The last value that a literal pairs with a name. -/
def lastPaired?
    (l : Literal)
    (name : Text) : Option Script.Expr :=
  l.entries.reverse.findSome? fun
    | .pair _ key value =>
        if key = some name then some value else none
    | .other _ _ _ => none

/-
  Whether a literal describes a style: it is scoped by a
  literal truth value, and its style is not undefined.
-/
def isStyleDescriptor
    (l : Literal) : Bool :=
  ((l.lastPaired? scopedName).any fun e => e.isBool) &&
    ((l.lastPaired? styleName).any fun e => !e.isUndefined)

end Literal
end ComponentLoader
