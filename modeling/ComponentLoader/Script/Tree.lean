import ComponentLoader.Script.Binary64
import ComponentLoader.Source

/-
  This file defines what is kept of a parsed script.

  Literals, names, calls and parentheses are kept as they
  were written, with their spans; every other expression
  is kept as its span alone.  Of the module structure,
  classes and namespaces are kept, the latter wherever
  they are declared.

  Key definitions include:
    * `Script.Expr`
    * `Script.Expr.isTarget`
    * `Script.Expr.isPattern`
    * `Script.Entry`
    * `Script.Element`
    * `Script.Argument`
    * `Script.Class`
    * `Script.Item`
    * `Script.Namespace`
    * `Script.Module`
-/

namespace ComponentLoader
namespace Script

------------------------------------------------------------
-- Expressions
------------------------------------------------------------

/- What is known of an expression kept by its span. -/
inductive Form where
  /- An arrow function. -/
  | arrow
  /- An operator and the operand after it. -/
  | prefixed
  /- `await` and the operand after it. -/
  | awaited
  /- A condition, a count, or operands with operators. -/
  | operation
  /- A thing that can be assigned to. -/
  | target
  /- Anything else. -/
  | other
  deriving DecidableEq, Inhabited

/- What an entry without a value of its own is. -/
inductive Role where
  /- A name that stands for itself. -/
  | short
  /- A method or an accessor. -/
  | method
  /- A spread. -/
  | spread
  deriving DecidableEq, Inhabited

mutual

/- An expression. -/
inductive Expr where
  /- A name. -/
  | name (span : Span) (name : Text)
  /- A string; one with half a surrogate has no value. -/
  | str (span : Span) (value : Option Text)
  /- A number. -/
  | num (span : Span) (value : Binary64)
  /- `true` or `false`. -/
  | bool (span : Span) (value : Bool)
  /- An object literal. -/
  | object (span : Span) (entries : List Entry)
  /- An array literal. -/
  | array (span : Span) (elements : List Element)
  /- A call that is not part of an optional chain. -/
  | call (span : Span) (callee : Expr)
      (arguments : List Argument)
  /- An expression in parentheses. -/
  | paren (span : Span) (inner : Expr)
  /- Any other expression. -/
  | form (span : Span) (form : Form)

/- An entry of an object literal. -/
inductive Entry where
  /- A key and a value, `name` if the key is fixed. -/
  | pair (span : Span) (name : Option Text) (value : Expr)
  /- An entry without a value of its own. -/
  | other (span : Span) (name : Option Text) (role : Role)

/- An element of an array literal. -/
inductive Element where
  /- Nothing between two commas. -/
  | hole
  /- An expression. -/
  | item (value : Expr)
  /- A spread, with the position of its dots. -/
  | spread (dots : Nat) (value : Expr)

/- An argument of a call. -/
inductive Argument where
  /- An expression. -/
  | item (value : Expr)
  /- A spread. -/
  | spread (value : Expr)

end

instance : Inhabited Expr :=
  ⟨.form Span.nowhere .other⟩

/- The span of an expression. -/
def Expr.span : Expr → Span
  | name span _ => span
  | str span _ => span
  | num span _ => span
  | bool span _ => span
  | object span _ => span
  | array span _ => span
  | call span _ _ => span
  | paren span _ => span
  | form span _ => span

/- The span of an entry. -/
def Entry.span : Entry → Span
  | pair span _ _ => span
  | other span _ _ => span

/- The fixed name of an entry. -/
def Entry.name? : Entry → Option Text
  | pair _ name _ => name
  | other _ name _ => name

/- The span of an element; a hole has none. -/
def Element.span : Element → Span
  | hole => Span.nowhere
  | item value => value.span
  | spread dots value => { lo := dots, hi := value.span.hi }

------------------------------------------------------------
-- What An Expression Can Be Used For
------------------------------------------------------------

/- Whether an expression is an arrow function. -/
def Expr.isArrow : Expr → Bool
  | form _ .arrow => true
  | _ => false

/- Whether an expression is a name. -/
def Expr.isName : Expr → Bool
  | name _ _ => true
  | _ => false

/- Whether an expression is a given name. -/
def Expr.isNamed
    (e : Expr)
    (w : String) : Bool :=
  match e with
  | .name _ n => n == w.toList
  | _ => false

/- Whether nothing can be assigned to an expression. -/
def Expr.isOperation : Expr → Bool
  | form _ .prefixed => true
  | form _ .operation => true
  | _ => false

/- Whether an expression cannot be raised to a power. -/
def Expr.isPrefixed : Expr → Bool
  | form _ .prefixed => true
  | form _ .awaited => true
  | _ => false

/- Whether an expression can be assigned to as it is. -/
def Expr.isTarget : Expr → Bool
  | name _ _ => true
  | paren _ _ => true
  | form _ .target => true
  | _ => false

mutual

/-
  Whether an expression can be taken for a pattern: the
  objects in it have no methods.
-/
def Expr.isPattern : Expr → Bool
  | .object _ entries => Entry.arePatterns entries
  | .array _ elements => Element.arePatterns elements
  | _ => true
termination_by structural e => e

/- Whether entries can be taken for those of a pattern. -/
def Entry.arePatterns : List Entry → Bool
  | [] => true
  | entry :: rest =>
      Entry.isPattern entry && Entry.arePatterns rest
termination_by structural entries => entries

/- Whether an entry can be taken for one of a pattern. -/
def Entry.isPattern : Entry → Bool
  | .pair _ _ value => Expr.isPattern value
  | .other _ _ role => role != .method
termination_by structural entry => entry

/-
  Whether elements can be taken for those of a pattern; of
  spreads only one at the end counts.
-/
def Element.arePatterns : List Element → Bool
  | [] => true
  | first :: rest =>
      Element.isPattern first rest.isEmpty &&
        Element.arePatterns rest
termination_by structural elements => elements

/- Whether an element can be taken for one of a pattern. -/
def Element.isPattern : Element → Bool → Bool
  | .hole, _ => true
  | .item value, _ => Expr.isPattern value
  | .spread _ value, last =>
      !last || Expr.isPattern value
termination_by structural element => element

end

------------------------------------------------------------
-- Modules
------------------------------------------------------------

/- A decorator: its expression and where it ends. -/
structure Decorator where
  value : Expr
  hi : Nat
  deriving Inhabited

/- A class: where it starts, and its decorators. -/
structure Class where
  lo : Nat
  decorators : List Decorator
  deriving Inhabited

/- What an item of a module is. -/
inductive Shape where
  /- A class declaration. -/
  | classDecl (name : Text) (decl : Class)
  /- An exported class declaration. -/
  | exportClass (name : Text) (decl : Class)
  /- A class that is the default export. -/
  | exportDefault (name : Option Text) (decl : Class)
  /- An expression statement. -/
  | expression (value : Expr)
  /- Any other statement or declaration. -/
  | other
  deriving Inhabited

mutual

/- An item and the namespaces declared inside it. -/
inductive Item where
  | mk (shape : Shape) (inner : List Namespace)

/- A namespace; one named by a string has no name here. -/
inductive Namespace where
  | mk (name : Option Text) (items : List Item)

end

instance : Inhabited Item :=
  ⟨.mk .other []⟩

instance : Inhabited Namespace :=
  ⟨.mk none []⟩

/- What an item is. -/
def Item.shape : Item → Shape
  | mk shape _ => shape

/- The namespaces declared inside an item. -/
def Item.inner : Item → List Namespace
  | mk _ inner => inner

/- The items of a parsed script. -/
structure Module where
  items : List Item
  deriving Inhabited

end Script
end ComponentLoader
