import Mathlib.Tactic
import ComponentLoader.Script.Parser

/-
  Equality of parsed scripts can be decided, and so can the
  question whether a text is parsed to a given module.

  Main declarations:
    * `Script.Expr.same` and `Script.Expr.same_iff`
    * `Script.Item.same` and `Script.Item.same_iff`
    * `DecidableEq` for what a script is parsed to
-/

------------------------------------------------------------
-- Expressions
------------------------------------------------------------

namespace ComponentLoader

namespace Script

mutual

/- Whether two expressions are the same. -/
def Expr.same : Expr → Expr → Bool
  | .name span name, .name span' name' =>
      span = span' && name = name'
  | .str span value, .str span' value' =>
      span = span' && value = value'
  | .num span value, .num span' value' =>
      span = span' && value = value'
  | .bool span value, .bool span' value' =>
      span = span' && value = value'
  | .object span entries, .object span' entries' =>
      span = span' && Entry.allSame entries entries'
  | .array span elements, .array span' elements' =>
      span = span' && Element.allSame elements elements'
  | .call span callee arguments,
      .call span' callee' arguments' =>
      span = span' && callee.same callee' &&
        Argument.allSame arguments arguments'
  | .paren span inner, .paren span' inner' =>
      span = span' && inner.same inner'
  | .form span form, .form span' form' =>
      span = span' && form = form'
  | _, _ => false
termination_by structural e => e

/- Whether two entries are the same. -/
def Entry.same : Entry → Entry → Bool
  | .pair span name value, .pair span' name' value' =>
      span = span' && name = name' && value.same value'
  | .other span name role, .other span' name' role' =>
      span = span' && name = name' && role = role'
  | _, _ => false
termination_by structural entry => entry

/- Whether two elements are the same. -/
def Element.same : Element → Element → Bool
  | .hole, .hole => true
  | .item value, .item value' => value.same value'
  | .spread dots value, .spread dots' value' =>
      dots = dots' && value.same value'
  | _, _ => false
termination_by structural element => element

/- Whether two arguments are the same. -/
def Argument.same : Argument → Argument → Bool
  | .item value, .item value' => value.same value'
  | .spread value, .spread value' => value.same value'
  | _, _ => false
termination_by structural argument => argument

/- The same of lists of these, one by one. -/
def Entry.allSame : List Entry → List Entry → Bool
  | [], [] => true
  | entry :: rest, entry' :: rest' =>
      entry.same entry' && Entry.allSame rest rest'
  | _, _ => false
termination_by structural entries => entries

def Element.allSame : List Element → List Element → Bool
  | [], [] => true
  | element :: rest, element' :: rest' =>
      element.same element' && Element.allSame rest rest'
  | _, _ => false
termination_by structural elements => elements

def Argument.allSame :
    List Argument → List Argument → Bool
  | [], [] => true
  | argument :: rest, argument' :: rest' =>
      argument.same argument' &&
        Argument.allSame rest rest'
  | _, _ => false
termination_by structural arguments => arguments

end

mutual

/- What is found to be the same is equal. -/
theorem Expr.same_iff :
    (e e' : Expr) → (e.same e' = true ↔ e = e')
  | .name _ _, e' => by cases e' <;> simp [Expr.same]
  | .str _ _, e' => by cases e' <;> simp [Expr.same]
  | .num _ _, e' => by cases e' <;> simp [Expr.same]
  | .bool _ _, e' => by cases e' <;> simp [Expr.same]
  | .object _ entries, e' => by
      cases e' <;> simp [Expr.same, Entry.allSame_iff entries]
  | .array _ elements, e' => by
      cases e' <;>
        simp [Expr.same, Element.allSame_iff elements]
  | .call _ callee arguments, e' => by
      cases e' <;>
        simp [Expr.same, Expr.same_iff callee,
          Argument.allSame_iff arguments, and_assoc]
  | .paren _ inner, e' => by
      cases e' <;> simp [Expr.same, Expr.same_iff inner]
  | .form _ _, e' => by cases e' <;> simp [Expr.same]
termination_by structural e => e

theorem Entry.same_iff :
    (entry entry' : Entry) →
      (entry.same entry' = true ↔ entry = entry')
  | .pair _ _ value, entry' => by
      cases entry' <;>
        simp [Entry.same, Expr.same_iff value, and_assoc]
  | .other _ _ _, entry' => by
      cases entry' <;> simp [Entry.same, and_assoc]
termination_by structural entry => entry

theorem Element.same_iff :
    (element element' : Element) →
      (element.same element' = true ↔ element = element')
  | .hole, element' => by
      cases element' <;> simp [Element.same]
  | .item value, element' => by
      cases element' <;>
        simp [Element.same, Expr.same_iff value]
  | .spread _ value, element' => by
      cases element' <;>
        simp [Element.same, Expr.same_iff value]
termination_by structural element => element

theorem Argument.same_iff :
    (argument argument' : Argument) →
      (argument.same argument' = true ↔
        argument = argument')
  | .item value, argument' => by
      cases argument' <;>
        simp [Argument.same, Expr.same_iff value]
  | .spread value, argument' => by
      cases argument' <;>
        simp [Argument.same, Expr.same_iff value]
termination_by structural argument => argument

theorem Entry.allSame_iff :
    (entries entries' : List Entry) →
      (Entry.allSame entries entries' = true ↔
        entries = entries')
  | [], entries' => by
      cases entries' <;> simp [Entry.allSame]
  | entry :: rest, entries' => by
      cases entries' <;>
        simp [Entry.allSame, Entry.same_iff entry,
          Entry.allSame_iff rest]
termination_by structural entries => entries

theorem Element.allSame_iff :
    (elements elements' : List Element) →
      (Element.allSame elements elements' = true ↔
        elements = elements')
  | [], elements' => by
      cases elements' <;> simp [Element.allSame]
  | element :: rest, elements' => by
      cases elements' <;>
        simp [Element.allSame, Element.same_iff element,
          Element.allSame_iff rest]
termination_by structural elements => elements

theorem Argument.allSame_iff :
    (arguments arguments' : List Argument) →
      (Argument.allSame arguments arguments' = true ↔
        arguments = arguments')
  | [], arguments' => by
      cases arguments' <;> simp [Argument.allSame]
  | argument :: rest, arguments' => by
      cases arguments' <;>
        simp [Argument.allSame, Argument.same_iff argument,
          Argument.allSame_iff rest]
termination_by structural arguments => arguments

end

instance : DecidableEq Expr :=
  fun e e' => decidable_of_iff _ (Expr.same_iff e e')

------------------------------------------------------------
-- Modules
------------------------------------------------------------

deriving instance DecidableEq for Decorator
deriving instance DecidableEq for Class
deriving instance DecidableEq for Shape

mutual

/- Whether two items are the same. -/
def Item.same : Item → Item → Bool
  | .mk shape inner, .mk shape' inner' =>
      shape = shape' && Namespace.allSame inner inner'
termination_by structural item => item

/- Whether two namespaces are the same. -/
def Namespace.same : Namespace → Namespace → Bool
  | .mk name items, .mk name' items' =>
      name = name' && Item.allSame items items'
termination_by structural ns => ns

def Item.allSame : List Item → List Item → Bool
  | [], [] => true
  | item :: rest, item' :: rest' =>
      item.same item' && Item.allSame rest rest'
  | _, _ => false
termination_by structural items => items

def Namespace.allSame :
    List Namespace → List Namespace → Bool
  | [], [] => true
  | ns :: rest, ns' :: rest' =>
      ns.same ns' && Namespace.allSame rest rest'
  | _, _ => false
termination_by structural nss => nss

end

mutual

/- Items that are found to be the same are equal. -/
theorem Item.same_iff :
    (item item' : Item) →
      (item.same item' = true ↔ item = item')
  | .mk _ inner, .mk _ inner' => by
      simp [Item.same, Namespace.allSame_iff inner inner']
termination_by structural item => item

theorem Namespace.same_iff :
    (ns ns' : Namespace) →
      (ns.same ns' = true ↔ ns = ns')
  | .mk _ items, .mk _ items' => by
      simp [Namespace.same, Item.allSame_iff items items']
termination_by structural ns => ns

theorem Item.allSame_iff :
    (items items' : List Item) →
      (Item.allSame items items' = true ↔ items = items')
  | [], items' => by
      cases items' <;> simp [Item.allSame]
  | item :: rest, items' => by
      cases items' <;>
        simp [Item.allSame, Item.same_iff item,
          Item.allSame_iff rest]
termination_by structural items => items

theorem Namespace.allSame_iff :
    (nss nss' : List Namespace) →
      (Namespace.allSame nss nss' = true ↔ nss = nss')
  | [], nss' => by
      cases nss' <;> simp [Namespace.allSame]
  | ns :: rest, nss' => by
      cases nss' <;>
        simp [Namespace.allSame, Namespace.same_iff ns,
          Namespace.allSame_iff rest]
termination_by structural nss => nss

end

instance : DecidableEq Item :=
  fun item item' =>
    decidable_of_iff _ (Item.same_iff item item')

deriving instance DecidableEq for Module

/- Whether a text is parsed to a module. -/
instance
    (dialect : Dialect)
    (text : Text)
    (m : Module) :
    Decidable (parse dialect text = .ok m) :=
  match parse dialect text with
  | .ok n => decidable_of_iff (n = m) (by simp)
  | .error _ => isFalse (by simp)

end Script

end ComponentLoader
