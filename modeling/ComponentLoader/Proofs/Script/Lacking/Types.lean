import ComponentLoader.Proofs.Script.Lacking.Parsers
import ComponentLoader.Script.Grammar.Markup

/-
  The rules for patterns, types, blocks and markup pass
  through a text that does not mention a name.

  Main declarations:
    * `Script.Rules.Lacking`
    * `Script.Grammar.keeps_decorators`
    * `Script.Grammar.keeps_expression`
-/

set_option mvcgen.warning false

------------------------------------------------------------
-- Rules
------------------------------------------------------------

namespace ComponentLoader

namespace Script

open Script.Parser

/-
  Rules whose results do not have a name where they could
  make a candidate.
-/
class Rules.Lacking
    (name text : Text)
    (r : Rules) : Prop where
  assign (sc : Scope) :
    Keeps name text (r.assign sc) (Expr.Lacks name)
  binary (sc : Scope) :
    Keeps name text (r.binary sc) (Expr.Lacks name)
  unary (sc : Scope) :
    Keeps name text (r.unary sc) (Expr.Lacks name)
  operand (sc : Scope) :
    Keeps name text (r.operand sc) (Expr.Lacks name)
  construct (sc : Scope) :
    Keeps name text (r.construct sc)
      fun made => made.1.Lacks name
  type (sc : Scope) :
    Passes name text (r.type sc)
  plainType (sc : Scope) :
    Passes name text (r.plainType sc)
  pattern (sc : Scope) :
    Passes name text (r.pattern sc)
  element (sc : Scope) :
    Passes name text (r.element sc)
  decorator (sc : Scope) :
    Keeps name text (r.decorator sc) (Decorator.Lacks name)
  statement (sc : Scope) (declOk : Bool) :
    Keeps name text (r.statement sc declOk)
      (Shape.Lacks name)
  items (sc : Scope) :
    Keeps name text (r.items sc)
      fun items => ∀ item ∈ items, item.Lacks name

attribute [spec] Rules.Lacking.binary
  Rules.Lacking.construct Rules.Lacking.type
  Rules.Lacking.plainType Rules.Lacking.pattern
  Rules.Lacking.element Rules.Lacking.decorator
  Rules.Lacking.items

namespace Rules

variable {name text : Text}
variable {r : Rules}
variable [Lacking name text r]
variable (sc : Scope)

@[spec low]
theorem passes_assign :
    Passes name text (r.assign sc) :=
  (Lacking.assign sc).passes

@[spec low]
theorem passes_unary :
    Passes name text (r.unary sc) :=
  (Lacking.unary sc).passes

@[spec low]
theorem passes_operand :
    Passes name text (r.operand sc) :=
  (Lacking.operand sc).passes

@[spec low]
theorem passes_statement
    (declOk : Bool) :
    Passes name text (r.statement sc declOk) :=
  (Lacking.statement sc declOk).passes

end Rules

attribute [grind →] Cursor.Lacks.here Cursor.Lacks.there

namespace Grammar

variable {name text : Text}
variable {r : Rules}
variable [Rules.Lacking name text r]
variable (sc : Scope)

------------------------------------------------------------
-- Templates
------------------------------------------------------------

/- A template is read from ends of the text. -/
@[spec]
theorem passes_templateFrom
    {tagged : Bool}
    {hole : Parser Unit}
    (hHole : Passes name text hole)
    (fuel : Nat)
    {p : Place}
    (hPlace : p.rest <:+ text) :
    Passes name text (templateFrom tagged hole fuel p) := by
  induction fuel generalizing p with
  | zero => exact passes_fail
  | succ fuel ih =>
      unfold templateFrom
      split
      · exact passes_fail
      · next stretch hScan =>
          have hNext := (scanTemplate_suffix hScan).trans
            hPlace
          mvcgen [hHole, ih, keeps_cursor]
          all_goals grind

@[spec]
theorem passes_template
    (tagged : Bool)
    {hole : Parser Unit}
    (hHole : Passes name text hole) :
    Passes name text (template tagged hole) := by
  mvcgen [template, hHole, keeps_cursor]
  all_goals grind

------------------------------------------------------------
-- Keys
------------------------------------------------------------

@[spec]
theorem passes_computedKey :
    Passes name text (computedKey r sc) := by
  mvcgen [computedKey]

@[spec]
theorem passes_propertyKey :
    Passes name text (propertyKey r sc) := by
  mvcgen [propertyKey]
  all_goals simp_all

------------------------------------------------------------
-- Words Before Other Things
------------------------------------------------------------

@[spec]
theorem passes_eatModifier
    (words : List String) :
    Passes name text (eatModifier words) := by
  mvcgen [eatModifier]

@[spec]
theorem passes_skipModifier :
    Passes name text (skipModifier sc) := by
  mvcgen [skipModifier]

------------------------------------------------------------
-- Patterns
------------------------------------------------------------

@[spec]
theorem passes_bindingName :
    Passes name text (bindingName sc) := by
  mvcgen [bindingName]

@[spec]
theorem passes_bindingElement :
    Passes name text (bindingElement r sc) := by
  mvcgen [bindingElement]

@[spec]
theorem passes_elementPattern :
    Passes name text (elementPattern r sc) := by
  mvcgen [elementPattern]

@[spec]
theorem passes_propertyPattern :
    Passes name text (propertyPattern r sc) := by
  mvcgen [propertyPattern]

@[spec]
theorem passes_ambientMark :
    Passes name text (ambientMark sc) := by
  mvcgen [ambientMark]

@[spec]
theorem passes_pattern :
    Passes name text (pattern r sc) := by
  mvcgen [pattern]
  all_goals simp_all

------------------------------------------------------------
-- Parameters
------------------------------------------------------------

@[spec]
theorem passes_annotation :
    Passes name text ( annotation r sc) := by
  mvcgen [ annotation]
  all_goals simp_all

theorem keeps_decorators :
    Keeps name text (decorators r sc)
      fun ds => ∀ d ∈ ds, d.Lacks name := by
  apply keeps_collect
  mvcgen
  all_goals simp_all

@[spec low]
theorem passes_decorators :
    Passes name text (decorators r sc) :=
  (keeps_decorators sc).passes

@[spec]
theorem passes_plainParam :
    Passes name text (plainParam r sc) := by
  mvcgen [plainParam]

@[spec]
theorem passes_param :
    Passes name text (param r sc) := by
  mvcgen [param]
  all_goals simp_all

@[spec]
theorem passes_params :
    Passes name text (params r sc) := by
  mvcgen [params]
  all_goals simp_all

@[spec]
theorem passes_typeParams :
    Passes name text (typeParams r sc) := by
  mvcgen [typeParams]

@[spec]
theorem passes_constructorParam :
    Passes name text (constructorParam r sc) := by
  mvcgen [constructorParam]
  all_goals simp_all

@[spec]
theorem passes_constructorParams :
    Passes name text (constructorParams r sc) := by
  mvcgen [constructorParams]
  all_goals simp_all

------------------------------------------------------------
-- Lists
------------------------------------------------------------

@[spec]
theorem passes_itemsUpTo
    {isClosed : Parser Bool}
    (hIsClosed : Passes name text isClosed)
    {item : Parser Unit}
    (hItem : Passes name text item) :
    Passes name text (itemsUpTo isClosed item) := by
  mvcgen [itemsUpTo, hIsClosed, hItem]

@[spec]
theorem passes_isAtAngle :
    Passes name text isAtAngle := by
  mvcgen [isAtAngle]

@[spec]
theorem passes_angleList
    {item : Parser Unit}
    (hItem : Passes name text item) :
    Passes name text (angleList item) := by
  mvcgen [angleList, hItem]

@[spec]
theorem passes_typeArguments :
    Passes name text (typeArguments r sc) := by
  mvcgen [typeArguments]
  all_goals simp_all

@[spec]
theorem passes_callTypeArguments :
    Passes name text (callTypeArguments r sc) := by
  mvcgen [callTypeArguments]
  all_goals simp_all

@[spec]
theorem passes_typeArgumentsHere :
    Passes name text (typeArgumentsHere r sc) := by
  mvcgen [typeArgumentsHere]
  all_goals simp_all

@[spec]
theorem passes_typeParameter :
    Passes name text (typeParameter r sc) := by
  mvcgen [typeParameter]
  all_goals simp_all

@[spec]
theorem passes_typeParameters :
    Passes name text (typeParameters r sc) := by
  mvcgen [typeParameters]
  all_goals simp_all

@[spec]
theorem passes_typeParametersHere :
    Passes name text (typeParametersHere r sc) := by
  mvcgen [typeParametersHere]
  all_goals simp_all

@[spec]
theorem passes_optionalTypeParameters :
    Passes name text (optionalTypeParameters r sc) := by
  mvcgen [optionalTypeParameters]
  all_goals simp_all

------------------------------------------------------------
-- Results
------------------------------------------------------------

@[spec]
theorem passes_isAtPredicate :
    Passes name text isAtPredicate := by
  mvcgen [isAtPredicate]

@[spec]
theorem passes_returnType :
    Passes name text (returnType r sc) := by
  mvcgen [returnType]
  all_goals simp_all

@[spec]
theorem passes_returnAnnotation :
    Passes name text ( returnAnnotation r sc) := by
  mvcgen [ returnAnnotation]
  all_goals simp_all

@[spec]
theorem passes_signature :
    Passes name text (signature r sc) := by
  mvcgen [signature]
  all_goals simp_all

------------------------------------------------------------
-- Members
------------------------------------------------------------

@[spec]
theorem passes_memberEnd :
    Passes name text memberEnd := by
  mvcgen [memberEnd]

@[spec]
theorem passes_isAtIndex :
    Passes name text isAtIndex := by
  mvcgen [isAtIndex]

@[spec]
theorem passes_typeAnnotation :
    Passes name text ( typeAnnotation r sc) := by
  mvcgen [ typeAnnotation]
  all_goals simp_all

@[spec]
theorem passes_indexSignature :
    Passes name text (indexSignature r sc) := by
  mvcgen [indexSignature]

@[spec]
theorem passes_memberName :
    Passes name text (memberName r sc) := by
  mvcgen [memberName]
  all_goals simp_all

@[spec]
theorem passes_accessorSignature :
    Passes name text (accessorSignature r sc) := by
  mvcgen [accessorSignature]

@[spec]
theorem passes_propertySignature
    (readonly : Bool) :
    Passes name text (propertySignature r sc readonly) := by
  mvcgen [propertySignature]

@[spec]
theorem passes_typeMember :
    Passes name text (typeMember r sc) := by
  mvcgen [typeMember]
  all_goals simp_all

@[spec]
theorem passes_typeMembers :
    Passes name text (typeMembers r sc) := by
  mvcgen [typeMembers]

@[spec]
theorem passes_mappedStart :
    Passes name text mappedStart := by
  mvcgen [mappedStart]

@[spec]
theorem passes_signed
    {eatIt : Parser Bool}
    (hEatIt : Passes name text eatIt) :
    Passes name text (signed eatIt) := by
  mvcgen [signed, hEatIt]

@[spec]
theorem passes_mappedType :
    Passes name text (mappedType r sc) := by
  mvcgen [mappedType]

------------------------------------------------------------
-- Names Of Types
------------------------------------------------------------

@[spec]
theorem passes_dotted
    (test : Token → Bool) :
    Passes name text (dotted test) := by
  mvcgen [dotted]

@[spec]
theorem passes_entityName
    (test : Token → Bool) :
    Passes name text (entityName test) := by
  mvcgen [entityName]

@[spec]
theorem passes_importOptions
    {object : Parser Unit}
    (hObject : Passes name text object) :
    Passes name text (importOptions object) := by
  mvcgen [importOptions, hObject]

@[spec]
theorem passes_importType :
    Passes name text (importType r sc) := by
  mvcgen [importType]
  all_goals simp_all

@[spec]
theorem passes_namedType :
    Passes name text (namedType r sc) := by
  mvcgen [namedType]
  all_goals simp_all

@[spec]
theorem passes_queryType :
    Passes name text (queryType r sc) := by
  mvcgen [queryType]
  all_goals simp_all

@[spec]
theorem passes_thisPredicate :
    Passes name text (thisPredicate r sc) := by
  mvcgen [thisPredicate]
  all_goals simp_all

------------------------------------------------------------
-- Simple Types
------------------------------------------------------------

@[spec]
theorem passes_tupleLabel :
    Passes name text tupleLabel := by
  mvcgen [tupleLabel]

@[spec]
theorem passes_tupleElement :
    Passes name text (tupleElement r sc) := by
  mvcgen [tupleElement]

@[spec]
theorem passes_tupleRest :
    Passes name text (tupleRest r sc) := by
  mvcgen [tupleRest]
  all_goals simp_all

@[spec]
theorem passes_wordType
    (here : Token) :
    Passes name text (wordType r sc here) := by
  mvcgen [wordType]
  all_goals simp_all

@[spec]
theorem passes_simpleType :
    Passes name text (simpleType r sc) := by
  mvcgen [simpleType]
  all_goals simp_all

------------------------------------------------------------
-- Operators On Types
------------------------------------------------------------

@[spec]
theorem passes_typeSuffix :
    Passes name text (typeSuffix r sc) := by
  mvcgen [typeSuffix]

@[spec]
theorem passes_inferBound :
    Passes name text (inferBound r sc) := by
  mvcgen [inferBound]

@[spec]
theorem passes_operatorType :
    Passes name text (operatorType r sc) := by
  mvcgen [operatorType]
  all_goals simp_all

@[spec]
theorem passes_joinedTypes
    (p : Punct)
    {part : Parser Unit}
    (hPart : Passes name text part) :
    Passes name text (joinedTypes p part) := by
  mvcgen [joinedTypes, hPart]

@[spec]
theorem passes_unionType :
    Passes name text (unionType r sc) := by
  mvcgen [unionType]
  all_goals simp_all

------------------------------------------------------------
-- Types
------------------------------------------------------------

@[spec]
theorem passes_startsParams :
    Passes name text (startsParams r sc) := by
  mvcgen [startsParams]

@[spec]
theorem passes_functionType :
    Passes name text (functionType r sc) := by
  mvcgen [functionType]
  all_goals simp_all

@[spec]
theorem passes_plainType :
    Passes name text (plainType r sc) := by
  mvcgen [plainType]
  all_goals simp_all

@[spec]
theorem passes_type :
    Passes name text (type r sc) := by
  mvcgen [type]
  all_goals simp_all

------------------------------------------------------------
-- Interfaces Named By Others
------------------------------------------------------------

@[spec]
theorem passes_heritageLink :
    Passes name text (heritageLink r sc) := by
  mvcgen [heritageLink]

@[spec]
theorem passes_heritageElement :
    Passes name text (heritageElement r sc) := by
  mvcgen [heritageElement]
  all_goals simp_all

@[spec]
theorem passes_heritage :
    Passes name text (heritage r sc) := by
  mvcgen [heritage]
  all_goals simp_all

------------------------------------------------------------
-- Expressions With Commas
------------------------------------------------------------

@[spec]
theorem keeps_formFrom
    (form : Form)
    (lo : Nat) :
    Keeps name text (formFrom form lo) (Expr.Lacks name) := by
  mvcgen [formFrom]

theorem keeps_expression :
    Keeps name text (expression r sc) (Expr.Lacks name) := by
  mvcgen [expression, Rules.Lacking.assign]
  all_goals simp_all

@[spec low]
theorem passes_expression :
    Passes name text (expression r sc) :=
  (keeps_expression sc).passes

------------------------------------------------------------
-- Blocks
------------------------------------------------------------

@[spec]
theorem passes_statements :
    Passes name text (statements r sc) := by
  mvcgen [statements]

@[spec]
theorem passes_block :
    Passes name text (block r sc) := by
  mvcgen [block]
  all_goals simp_all

------------------------------------------------------------
-- Functions
------------------------------------------------------------

@[spec]
theorem passes_functionBody :
    Passes name text (functionBody r sc) := by
  mvcgen [functionBody]
  all_goals simp_all

@[spec]
theorem passes_functionHead :
    Passes name text (functionHead r sc) := by
  mvcgen [functionHead]
  all_goals simp_all

@[spec]
theorem passes_functionRest
    (async generator : Bool)
    {marked : List Namespace}
    (hMarked : ∀ ns ∈ marked, ns.Lacks name) :
    Passes name text
      (functionRest r sc async generator marked) := by
  mvcgen [functionRest]
  all_goals simp_all

@[spec]
theorem passes_functionWithBody
    (async generator : Bool) :
    Passes name text
      (functionWithBody r sc async generator) := by
  mvcgen [functionWithBody]
  all_goals simp_all

------------------------------------------------------------
-- Names
------------------------------------------------------------

@[spec]
theorem passes_markupWord :
    Passes name text markupWord := by
  mvcgen [markupWord, keeps_cursor]
  all_goals grind [scanMarkupTail_suffix]

@[spec]
theorem passes_markupPair :
    Passes name text markupPair := by
  mvcgen [markupPair]

@[spec]
theorem passes_markupName :
    Passes name text markupName := by
  mvcgen [markupName]

------------------------------------------------------------
-- Attributes
------------------------------------------------------------

@[spec]
theorem passes_markupHole :
    Passes name text (markupHole r sc) := by
  mvcgen [markupHole]

@[spec]
theorem passes_spreadAttribute :
    Passes name text (spreadAttribute r sc) := by
  mvcgen [spreadAttribute]

@[spec]
theorem passes_attributeValue :
    Passes name text (attributeValue r sc) := by
  mvcgen [attributeValue, keeps_cursor]
  all_goals grind [→ scanMarkupString_suffix]

@[spec]
theorem passes_markupAttribute :
    Passes name text (markupAttribute r sc) := by
  mvcgen [markupAttribute]

------------------------------------------------------------
-- Elements
------------------------------------------------------------

@[spec]
theorem passes_closingTag
    (word : Text) :
    Passes name text (closingTag word) := by
  mvcgen [closingTag]
  all_goals simp_all

/- Contents are read from ends of the text. -/
@[spec]
theorem passes_markupContents
    (tag : Text)
    (fuel : Nat)
    {p : Place}
    (hPlace : p.rest <:+ text) :
    Passes name text
      (markupContents r sc tag fuel p) := by
  induction fuel generalizing p with
  | zero => exact passes_fail
  | succ fuel ih =>
      have hNext := (scanMarkupText_suffix p).trans hPlace
      mvcgen [markupContents, ih, keeps_cursor]
      all_goals grind [Place.skip_suffix]

@[spec]
theorem passes_markupElement :
    Passes name text (markupElement r sc) := by
  mvcgen [markupElement, keeps_cursor]
  all_goals grind [Place.skip_suffix]

end Grammar

end Script

end ComponentLoader
