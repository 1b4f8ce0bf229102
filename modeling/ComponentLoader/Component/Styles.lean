import ComponentLoader.Component.Resource
import ComponentLoader.Literal.Value

/-
  This file defines how the styles of a component are
  classified.

  A style is a path, an import of a path, a descriptor
  with a flag and a path, or an array of styles.  Anything
  else is left as it is and counts as not scoped.

  Key definitions include:
    * `Styles.Outcome`
    * `Styles.path?`
    * `Styles.classify`
-/

namespace ComponentLoader
namespace Styles

------------------------------------------------------------
-- Outcomes
------------------------------------------------------------

/- What becomes of a style. -/
structure Outcome where
  /- The code to write for it. -/
  node : Node
  /- Whether any part of it is scoped. -/
  isScoped : Bool
  /- Whether the code differs from the one at hand. -/
  changed : Bool

/- A style left as it is. -/
def kept
    (source : Source) : Value → Outcome
  | .hole =>
      { node := .hole, isScoped := false, changed := false }
  | value =>
      { node := .source (source.slice value.span)
        isScoped := false
        changed := false }

/- The import of a style. -/
def importOf
    (path : Text)
    (scope : Option Text) : Node :=
  .resource (Resource.request .style path scope)

/- A style that is only a path. -/
def ofPath
    (path : Text) : Outcome :=
  { node :=
      .object
        [.keyValue scopedName (.bool false),
          .keyValue styleName (importOf path none)]
    isScoped := false
    changed := true }

------------------------------------------------------------
-- Descriptors
------------------------------------------------------------

/- The path of a style: a string, or an import of one. -/
def path?
    (value : Value) : Option Text :=
  match value.text? with
  | some path => some path
  | none => value.importPath?

/- The entries of a descriptor with its style replaced. -/
def descriptorProps
    (source : Source)
    (style : Node)
    (l : Literal) : List PropNode :=
  l.entries.map fun entry =>
    if entry.name? = some styleName then
      .keyValue styleName style
    else
      .source (source.slice entry.span)

/-
  A descriptor with its entries.  Without a path it stays
  as it is, even if its flag says that it is scoped.
-/
def ofDescriptor
    (source : Source)
    (scopeId : Text)
    (value : Value)
    (l : Literal)
    (entries : Dict Value) : Outcome :=
  let isScoped :=
    ((entries.get? scopedName).bind Value.bool?).getD false
  match (entries.get? styleName).bind path? with
  | none => kept source value
  | some path =>
      let scope := if isScoped then some scopeId else none
      let style := importOf path scope
      { node := .object (descriptorProps source style l)
        isScoped := isScoped
        changed := true }

------------------------------------------------------------
-- Classification
------------------------------------------------------------

/- Styles in an array, left as they are if none changes. -/
def ofItems
    (source : Source)
    (value : Value)
    (outcomes : List Outcome) : Outcome :=
  if outcomes.any fun o => o.changed then
    { node := .array (outcomes.map fun o => o.node)
      isScoped := outcomes.any fun o => o.isScoped
      changed := true }
  else
    kept source value

/- A style that is no array. -/
def ofValue
    (source : Source)
    (scopeId : Text)
    (value : Value) : Outcome :=
  match value with
  | .map l entries _ =>
      if l.isStyleDescriptor then
        ofDescriptor source scopeId value l entries
      else
        kept source value
  | other =>
      match path? other with
      | some path => ofPath path
      | none => kept source other

mutual

/- What becomes of styles for a scope id. -/
def classify
    (source : Source)
    (scopeId : Text) : Value → Outcome
  | .seq span items =>
      ofItems source (.seq span items)
        (classifyAll source scopeId items)
  | value => ofValue source scopeId value
termination_by structural value => value

/- The same, item by item. -/
def classifyAll
    (source : Source)
    (scopeId : Text) : List Value → List Outcome
  | [] => []
  | value :: rest =>
      classify source scopeId value ::
        classifyAll source scopeId rest
termination_by structural values => values

end

end Styles
end ComponentLoader
