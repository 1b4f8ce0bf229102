import ComponentLoader.Proofs.Script.Lacking.Types
import ComponentLoader.Script.Grammar.Expressions

/-
  The rules for expressions and classes give, in a text
  that does not mention a name, no expression that is the
  name or calls it.

  Main declarations:
    * `Script.Grammar.keeps_subscripts`
    * `Script.Grammar.keeps_operand`
    * `Script.Grammar.keeps_decorator`
    * `Script.Grammar.keeps_assign`
-/

set_option mvcgen.warning false

------------------------------------------------------------
-- Objects
------------------------------------------------------------

namespace ComponentLoader

namespace Script

namespace Grammar

open Script.Parser

variable {name text : Text}
variable {r : Rules}
variable [Rules.Lacking name text r]
variable (sc : Scope)

@[spec]
theorem passes_methodEntry
    (lo : Nat)
    (word : Option Text)
    (async generator : Bool) :
    Passes name text
      (methodEntry r sc lo word async generator) := by
  mvcgen [methodEntry]
  all_goals simp_all

@[spec]
theorem passes_wordEntry
    (lo : Nat)
    (key : Key) :
    Passes name text (wordEntry r sc lo key) := by
  mvcgen [wordEntry]
  all_goals simp_all

@[spec]
theorem passes_keyedEntry
    (lo : Nat) :
    Passes name text (keyedEntry r sc lo) := by
  mvcgen [keyedEntry]
  all_goals simp_all

@[spec]
theorem passes_entry :
    Passes name text (entry r sc) := by
  mvcgen [entry]
  all_goals simp_all

@[spec]
theorem keeps_object :
    Keeps name text (object r sc) (Expr.Lacks name) := by
  mvcgen [object]
  all_goals simp_all

------------------------------------------------------------
-- Arrays And Arguments
------------------------------------------------------------

@[spec]
theorem passes_element :
    Passes name text (element r sc) := by
  mvcgen [element]

@[spec]
theorem keeps_array :
    Keeps name text (array r sc) (Expr.Lacks name) := by
  mvcgen [array]
  all_goals simp_all

@[spec]
theorem passes_argument :
    Passes name text (argument r sc) := by
  mvcgen [argument]

@[spec]
theorem passes_arguments :
    Passes name text (arguments r sc) := by
  mvcgen [arguments]
  all_goals simp_all

@[spec]
theorem passes_importArguments :
    Passes name text (importArguments r sc) := by
  mvcgen [importArguments]

------------------------------------------------------------
-- Operands And Operators
------------------------------------------------------------

@[spec]
theorem keeps_rightType
    (left : Joined)
    (constOk : Bool) :
    Keeps name text (rightType r sc left constOk)
      fun joined => joined.value.Lacks name := by
  mvcgen [rightType]

@[spec]
theorem keeps_rightOperand
    (left : Joined) :
    Keeps name text (rightOperand r sc left)
      fun joined => joined.value.Lacks name := by
  mvcgen [rightOperand]

@[spec]
theorem keeps_binaryStep
    (left : Joined) :
    Keeps name text (binaryStep r sc left)
      fun found =>
        ∀ joined, found = some joined →
          joined.value.Lacks name := by
  mvcgen [binaryStep]
  all_goals simp_all

@[spec]
theorem keeps_binaryRest
    {first : Expr}
    (hFirst : first.Lacks name) :
    Keeps name text (binaryRest r sc first)
      (Expr.Lacks name) := by
  have hJoined :=
    @keeps_iterate Joined name text
      (fun joined => joined.value.Lacks name)
      (binaryStep r sc)
      (fun left _ => keeps_binaryStep sc left)
      (Joined.ofExpr first) hFirst
  mvcgen [binaryRest, hJoined]

------------------------------------------------------------
-- Conditions And Assignments
------------------------------------------------------------

@[spec]
theorem keeps_outcomes
    (lo : Nat) :
    Keeps name text (outcomes r sc lo) (Expr.Lacks name) := by
  mvcgen [outcomes]

@[spec]
theorem keeps_conditionalRest
    (lo : Nat)
    {test : Expr}
    (hTest : test.Lacks name) :
    Keeps name text (conditionalRest r sc lo test)
      (Expr.Lacks name) := by
  mvcgen [conditionalRest]
  all_goals simp_all

@[spec]
theorem keeps_assignRest
    (lo : Nat)
    {target : Expr}
    (hTarget : target.Lacks name) :
    Keeps name text (assignRest r sc lo target)
      (Expr.Lacks name) := by
  mvcgen [assignRest]

------------------------------------------------------------
-- Bodies
------------------------------------------------------------

@[spec]
theorem passes_arrowBody
    (async : Bool) :
    Passes name text (arrowBody r sc async) := by
  mvcgen [arrowBody]

@[spec]
theorem keeps_arrowRest
    (lo : Nat)
    (async : Bool) :
    Keeps name text (arrowRest r sc lo async)
      (Expr.Lacks name) := by
  mvcgen [arrowRest]

------------------------------------------------------------
-- Items In Parentheses
------------------------------------------------------------

@[spec]
theorem keeps_groupValue
    (lo : Nat) :
    Keeps name text (groupValue r sc lo)
      fun read => read.2.Lacks name := by
  mvcgen [groupValue, Rules.Lacking.assign]
  all_goals simp_all

@[spec]
theorem passes_isAtMark :
    Passes name text isAtMark := by
  mvcgen [isAtMark]

@[spec]
theorem passes_paramRest
    (item : GroupItem) :
    Passes name text (paramRest r sc item) := by
  mvcgen [paramRest]

@[spec]
theorem passes_groupItem
    (lo : Nat) :
    Passes name text (groupItem r sc lo) := by
  mvcgen [groupItem]
  all_goals simp_all

@[spec]
theorem passes_lateArrow
    (lo : Nat)
    (items : List GroupItem) :
    Passes name text (lateArrow r sc lo items) := by
  mvcgen [lateArrow]
  all_goals simp_all

@[spec]
theorem passes_groupStep
    (before : List GroupItem) :
    Passes name text (groupStep r sc before) := by
  mvcgen [groupStep]

@[spec]
theorem passes_groupItems :
    Passes name text (groupItems r sc) := by
  mvcgen [groupItems]
  all_goals simp_all

------------------------------------------------------------
-- Parentheses
------------------------------------------------------------

@[spec]
theorem keeps_outcomeArrow
    (lo : Nat)
    (async : Bool)
    (items : List GroupItem) :
    Keeps name text (outcomeArrow r sc lo async items)
      (Expr.Lacks name) := by
  mvcgen [outcomeArrow]
  all_goals simp_all

@[spec]
theorem passes_arrowResult :
    Passes name text (arrowResult r sc) := by
  mvcgen [arrowResult]

@[spec]
theorem keeps_groupArrow
    (lo : Nat)
    (async : Bool)
    (items : List GroupItem) :
    Keeps name text (groupArrow r sc lo async items)
      (Expr.Lacks name) := by
  mvcgen [groupArrow]
  all_goals simp_all

@[spec]
theorem keeps_parenthesized
    (lo : Nat)
    (items : List GroupItem) :
    Keeps name text (parenthesized lo items)
      (Expr.Lacks name) := by
  mvcgen [parenthesized]
  all_goals simp_all

@[spec]
theorem keeps_asyncCall
    (word : Span)
    (items : List GroupItem)
    (hAsync : "async".toList ≠ name) :
    Keeps name text (asyncCall word items)
      (Expr.Lacks name) := by
  mvcgen [asyncCall]
  all_goals simp_all

@[spec]
theorem keeps_group
    (async : Option Span)
    (hAsync : async.isSome = true → "async".toList ≠ name) :
    Keeps name text (group r sc async)
      (Expr.Lacks name) := by
  have hArrow :=
    fun lo async items =>
      keeps_attempt
        (@keeps_outcomeArrow name text r _ sc lo async items)
  mvcgen [group, hArrow]
  all_goals simp_all

------------------------------------------------------------
-- Names
------------------------------------------------------------

@[spec]
theorem keeps_asyncArrow
    (lo : Nat) :
    Keeps name text (asyncArrow r sc lo)
      (Expr.Lacks name) := by
  mvcgen [asyncArrow]
  all_goals simp_all

@[spec]
theorem passes_isAtLoopOf :
    Passes name text (isAtLoopOf sc) := by
  mvcgen [isAtLoopOf]

@[spec]
theorem keeps_nameOrArrow :
    Keeps name text (nameOrArrow r sc)
      (Expr.Lacks name) := by
  mvcgen [nameOrArrow, keeps_wordThat]
  case vc9 | vc13 => exact fun _ _ => inferInstance
  all_goals simp_all only [Expr.lacks_name, ne_eq,
    not_false_eq_true, and_self]

@[spec]
theorem keeps_genericAsyncArrow
    (lo : Nat) :
    Keeps name text (genericAsyncArrow r sc lo)
      (Expr.Lacks name) := by
  mvcgen [genericAsyncArrow]
  all_goals simp_all

@[spec]
theorem keeps_asyncOperand
    (hAsync : "async".toList ≠ name) :
    Keeps name text (asyncOperand r sc)
      (Expr.Lacks name) := by
  have hArrow :=
    fun lo =>
      keeps_attempt
        (@keeps_genericAsyncArrow name text r _ sc lo)
  mvcgen [asyncOperand, hArrow]
  all_goals simp_all

------------------------------------------------------------
-- Keys Of Members
------------------------------------------------------------

@[spec]
theorem passes_classKey :
    Passes name text (classKey r sc) := by
  mvcgen [classKey]
  all_goals simp_all

@[spec]
theorem passes_isAtMethod
    (types : Bool) :
    Passes name text (isAtMethod types) := by
  mvcgen [isAtMethod]

@[spec]
theorem passes_isAtProperty
    (types lineEnds : Bool) :
    Passes name text (isAtProperty types lineEnds) := by
  mvcgen [isAtProperty]

------------------------------------------------------------
-- Members
------------------------------------------------------------

@[spec]
theorem passes_propertyRest
    (key : Key)
    (optional : Bool)
    {marked : List Namespace}
    (hMarked : ∀ ns ∈ marked, ns.Lacks name) :
    Passes name text
      (propertyRest r sc key optional marked) := by
  mvcgen [propertyRest]
  all_goals simp_all

@[spec]
theorem passes_constructorRest :
    Passes name text (constructorRest r sc) := by
  mvcgen [constructorRest]
  all_goals simp_all

@[spec]
theorem passes_wordMember
    (word : String)
    (lineEnds : Bool)
    {marked : List Namespace}
    (hMarked : ∀ ns ∈ marked, ns.Lacks name) :
    Passes name text
      (wordMember r sc word lineEnds marked) := by
  mvcgen [wordMember]

@[spec]
theorem passes_asyncMember
    {marked : List Namespace}
    (hMarked : ∀ ns ∈ marked, ns.Lacks name) :
    Passes name text (asyncMember r sc marked) := by
  mvcgen [asyncMember]
  all_goals simp_all

@[spec]
theorem passes_keyedMember
    (words : Modifiers)
    {marked : List Namespace}
    (hMarked : ∀ ns ∈ marked, ns.Lacks name) :
    Passes name text (keyedMember r sc words marked) := by
  mvcgen [keyedMember]
  all_goals simp_all

@[spec]
theorem passes_freeModifiers
    (words : Modifiers) :
    Passes name text (freeModifiers words) := by
  mvcgen [freeModifiers]

@[spec]
theorem passes_modifiedMember
    (words : Modifiers)
    {marked : List Namespace}
    (hMarked : ∀ ns ∈ marked, ns.Lacks name) :
    Passes name text (modifiedMember r sc words marked) := by
  mvcgen [modifiedMember]
  all_goals simp_all

@[spec]
theorem passes_typedMember
    {marked : List Namespace}
    (hMarked : ∀ ns ∈ marked, ns.Lacks name) :
    Passes name text (typedMember r sc marked) := by
  mvcgen [typedMember]
  all_goals simp_all

@[spec]
theorem passes_plainMember
    {marked : List Namespace}
    (hMarked : ∀ ns ∈ marked, ns.Lacks name) :
    Passes name text (plainMember r sc marked) := by
  mvcgen [plainMember]
  all_goals simp_all

@[spec]
theorem passes_member :
    Passes name text (member r sc) := by
  mvcgen [member]
  all_goals simp_all

@[spec]
theorem passes_classBody :
    Passes name text (classBody r sc) := by
  mvcgen [classBody]

------------------------------------------------------------
-- Classes
------------------------------------------------------------

@[spec]
theorem passes_className
    (required : Bool) :
    Passes name text (className sc required) := by
  mvcgen [className]

@[spec]
theorem passes_superclass :
    Passes name text (superclass r sc) := by
  mvcgen [superclass]
  all_goals simp_all

@[spec]
theorem passes_superclassHere :
    Passes name text (superclassHere r sc) := by
  mvcgen [superclassHere]

@[spec]
theorem passes_interfaces :
    Passes name text (interfaces r sc) := by
  mvcgen [interfaces]
  all_goals simp_all

@[spec]
theorem passes_lateSuperclass :
    Passes name text (lateSuperclass r sc) := by
  mvcgen [lateSuperclass]
  all_goals simp_all

@[spec]
theorem passes_classRest
    (nameRequired : Bool) :
    Passes name text (classRest r sc nameRequired) := by
  mvcgen [classRest]
  all_goals grind

------------------------------------------------------------
-- Functions And Classes
------------------------------------------------------------

@[spec]
theorem keeps_functionExpr
    (lo : Nat)
    (async : Bool) :
    Keeps name text (functionExpr r sc lo async)
      (Expr.Lacks name) := by
  mvcgen [functionExpr]

@[spec]
theorem keeps_classExpr :
    Keeps name text (classExpr r sc) (Expr.Lacks name) := by
  mvcgen [classExpr]

------------------------------------------------------------
-- Things By Themselves
------------------------------------------------------------

@[spec]
theorem keeps_wordOperand
    {here : Token}
    (hHere : here.Lacks name) :
    Keeps name text (wordOperand r sc here)
      (Expr.Lacks name) := by
  have hAsync := @Token.Lacks.of_isWord name here hHere "async"
  mvcgen [wordOperand]
  all_goals simp_all

@[spec]
theorem passes_templateHole :
    Passes name text (templateHole r sc) := by
  mvcgen [templateHole]

@[spec]
theorem keeps_primary :
    Keeps name text (primary r sc) (Expr.Lacks name) := by
  mvcgen [primary, keeps_cursor]
  all_goals grind [→ scanRegex_suffix, Cursor.Lacks.token]

------------------------------------------------------------
-- Links
------------------------------------------------------------

@[spec]
theorem keeps_linkOf
    (lo : Nat)
    (optional generic : Bool) :
    Keeps name text (linkOf lo optional generic)
      fun chain => chain.value.Lacks name := by
  mvcgen [linkOf]

@[spec]
theorem keeps_callOf
    (lo : Nat)
    {chain : Chain}
    (hChain : chain.value.Lacks name) :
    Keeps name text (callOf r sc lo chain)
      fun chain => chain.value.Lacks name := by
  mvcgen [callOf]
  all_goals simp_all

@[spec]
theorem keeps_taggedOf
    (lo : Nat) :
    Keeps name text (taggedOf r sc lo)
      fun chain => chain.value.Lacks name := by
  mvcgen [taggedOf]
  all_goals simp_all

@[spec]
theorem passes_dotName :
    Passes name text dotName := by
  mvcgen [dotName]
  all_goals simp_all

@[spec]
theorem passes_computedName :
    Passes name text (computedName r sc) := by
  mvcgen [computedName]

@[spec]
theorem keeps_optionalLink
    (tail : Tail)
    (lo : Nat) :
    Keeps name text (optionalLink r sc tail lo)
      fun chain => chain.value.Lacks name := by
  mvcgen [optionalLink]

------------------------------------------------------------
-- Type Arguments
------------------------------------------------------------

@[spec]
theorem keeps_genericLink
    (tail : Tail)
    (lo : Nat)
    {chain : Chain}
    (hChain : chain.value.Lacks name) :
    Keeps name text (genericLink r sc tail lo chain)
      fun chain => chain.value.Lacks name := by
  mvcgen [genericLink]
  all_goals simp_all

------------------------------------------------------------
-- What Follows An Operand
------------------------------------------------------------

@[spec]
theorem keeps_plainSubscript
    (tail : Tail)
    (lo : Nat)
    {chain : Chain}
    (hChain : chain.value.Lacks name) :
    Keeps name text (plainSubscript r sc tail lo chain)
      fun found =>
        ∀ chain, found = some chain →
          chain.value.Lacks name := by
  mvcgen [plainSubscript]
  all_goals simp_all

@[spec]
theorem keeps_subscript
    (tail : Tail)
    (lo : Nat)
    {chain : Chain}
    (hChain : chain.value.Lacks name) :
    Keeps name text (subscript r sc tail lo chain)
      fun found =>
        ∀ chain, found = some chain →
          chain.value.Lacks name := by
  have hLink := keeps_attempt
    (@keeps_genericLink name text r _ sc tail lo chain hChain)
  mvcgen [subscript, hLink]
  all_goals simp_all

@[spec]
theorem keeps_subscripts
    (tail : Tail)
    (lo : Nat)
    {value : Expr}
    (hValue : value.Lacks name)
    (generic : Bool) :
    Keeps name text
      (subscripts r sc tail lo value generic)
      fun chain => chain.value.Lacks name :=
  keeps_iterate
    (fun _ hLacks => keeps_subscript sc tail lo hLacks)
    hValue

------------------------------------------------------------
-- Operands
------------------------------------------------------------

@[spec]
theorem keeps_superProperty
    (lo : Nat) :
    Keeps name text (superProperty r sc lo)
      (Expr.Lacks name) := by
  mvcgen [superProperty]

@[spec]
theorem keeps_superOperand
    (tail : Tail)
    (lo : Nat) :
    Keeps name text (superOperand r sc tail lo)
      fun chain => chain.value.Lacks name := by
  mvcgen [superOperand]
  all_goals simp_all

@[spec]
theorem keeps_importOperand
    (tail : Tail)
    (lo : Nat) :
    Keeps name text (importOperand r sc tail lo)
      fun chain => chain.value.Lacks name := by
  mvcgen [importOperand]
  all_goals simp_all

@[spec]
theorem passes_constructTypes :
    Passes name text (constructTypes r sc) := by
  mvcgen [constructTypes]

@[spec]
theorem keeps_operandWith
    (tail : Tail) :
    Keeps name text (operandWith r sc tail)
      fun chain => chain.value.Lacks name := by
  mvcgen [operandWith]
  all_goals simp_all

@[spec]
theorem keeps_construct :
    Keeps name text (construct r sc)
      fun made => made.1.Lacks name := by
  mvcgen [construct]
  all_goals simp_all

@[spec]
theorem keeps_operand :
    Keeps name text (operand r sc) (Expr.Lacks name) := by
  mvcgen [operand]

------------------------------------------------------------
-- Decorators
------------------------------------------------------------

@[spec]
theorem keeps_decoratorName :
    Keeps name text (decoratorName r sc)
      (Expr.Lacks name) := by
  mvcgen [decoratorName, keeps_wordThat, keeps_expression]
  all_goals simp_all +zetaDelta

@[spec]
theorem keeps_decorator :
    Keeps name text (decorator r sc)
      (Decorator.Lacks name) := by
  mvcgen [decorator]
  all_goals simp_all [Decorator.Lacks]

------------------------------------------------------------
-- Operators Before And After An Operand
------------------------------------------------------------

@[spec]
theorem keeps_assertion
    (lo : Nat) :
    Keeps name text (assertion r sc lo) (Expr.Lacks name) := by
  mvcgen [assertion]

@[spec]
theorem keeps_markupOperand
    (lo : Nat) :
    Keeps name text (markupOperand r sc lo)
      (Expr.Lacks name) := by
  mvcgen [markupOperand]

@[spec]
theorem keeps_prefixedOperand
    (lo : Nat) :
    Keeps name text (prefixedOperand r sc lo)
      (Expr.Lacks name) := by
  mvcgen [prefixedOperand]
  all_goals simp_all

@[spec]
theorem keeps_awaitOperand
    (lo : Nat) :
    Keeps name text (awaitOperand r sc lo)
      (Expr.Lacks name) := by
  mvcgen [awaitOperand, keeps_expectWord]
  all_goals simp_all

@[spec]
theorem keeps_countedOperand
    (lo : Nat) :
    Keeps name text (countedOperand r sc lo)
      (Expr.Lacks name) := by
  mvcgen [countedOperand]
  all_goals simp_all

@[spec]
theorem keeps_unary :
    Keeps name text (unary r sc) (Expr.Lacks name) := by
  mvcgen [unary]
  all_goals simp_all

------------------------------------------------------------
-- Operands With Operators Between Them
------------------------------------------------------------

@[spec]
theorem keeps_firstOperand :
    Keeps name text (firstOperand r sc)
      (Expr.Lacks name) :=
  keeps_recoverWhere (keeps_unary sc) fun _ => trivial

@[spec]
theorem keeps_binary :
    Keeps name text (binary r sc) (Expr.Lacks name) := by
  mvcgen [binary]
  all_goals simp_all

@[spec]
theorem keeps_conditional :
    Keeps name text (conditional r sc) (Expr.Lacks name) := by
  mvcgen [conditional]
  all_goals simp_all

------------------------------------------------------------
-- Expressions Without Commas
------------------------------------------------------------

@[spec]
theorem keeps_yieldExpr :
    Keeps name text (yieldExpr r sc) (Expr.Lacks name) := by
  mvcgen [yieldExpr]

@[spec]
theorem keeps_plainAssign :
    Keeps name text (plainAssign r sc) (Expr.Lacks name) := by
  mvcgen [plainAssign]
  all_goals simp_all

@[spec]
theorem keeps_genericArrow :
    Keeps name text (genericArrow r sc) (Expr.Lacks name) := by
  mvcgen [genericArrow]
  all_goals simp_all

@[spec]
theorem keeps_assign :
    Keeps name text (assign r sc) (Expr.Lacks name) := by
  have hArrow :=
    keeps_attempt (@keeps_genericArrow name text r _ sc)
  mvcgen [assign, hArrow]
  all_goals simp_all

end Grammar

end Script

end ComponentLoader
