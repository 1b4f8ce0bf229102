import ComponentLoader.Component.Styles

/-
  This file defines what is read from the literal of a
  component and the entries that are generated for it.

  Key definitions include:
    * `Component.Names`
    * `Component.Params`
    * `Component.Params.ofLiteral`
    * `Component.Fragments`
    * `Component.Fragments.ofParams`
    * `Component.Fragments.slots`
-/

namespace ComponentLoader
namespace Component

------------------------------------------------------------
-- Parameters
------------------------------------------------------------

/- The entry that holds the scope id. -/
def scopeIdName : Text :=
  "_scopeId".toList

/- The entry that marks a compiled template. -/
def compiledName : Text :=
  "_compiled".toList

/- The entry that identifies the module on a server. -/
def moduleIdName : Text :=
  "_moduleId".toList

/- The entry that holds the path of the source. -/
def fileName : Text :=
  "__file".toList

/- The entries that hold the template and the styles. -/
structure Names where
  template : Text
  styles : Text

/- What a literal says about a component. -/
structure Params where
  scopeId : Option Value
  compiled : Option Value
  template : Option Value
  styles : Option Value
  /- The entries without a fixed name. -/
  additional : List Script.Entry

/-
  What a literal says about a component.  An entry is read
  once: a name used twice goes to the first reader.
-/
def Params.ofLiteral
    (l : Literal)
    (names : Names) : Params :=
  let wanted :=
    [scopeIdName, compiledName, names.template, names.styles]
  let all := l.named fun name => wanted.contains name
  let unmarked := all.erase scopeIdName
  let plain := unmarked.erase compiledName
  { scopeId := all.get? scopeIdName
    compiled := unmarked.get? compiledName
    template := plain.get? names.template
    styles := (plain.erase names.template).get? names.styles
    additional := l.unnamed }

------------------------------------------------------------
-- Fragments
------------------------------------------------------------

/- The entries generated for a component. -/
structure Fragments where
  /- The scope id, if a style is scoped. -/
  scopeId : Option PropNode
  /- The mark of a compiled template. -/
  compiled : Option PropNode
  /- The request of the template and its spread. -/
  template : Option (Text × PropNode)
  /- The styles, if they have changed. -/
  styles : Option PropNode
  /- Whether any style is scoped. -/
  isScoped : Bool

/- The template of a component, if it is an import. -/
def templateOf
    (scope : Option Text)
    (value : Value) : Option (Text × PropNode) :=
  match value.importPath? with
  | some path =>
      let request := Resource.request .template path scope
      some (request, .spread (.resource request))
  | none => none

/- The attribute of a scope id. -/
def scopeAttribute
    (scopeId : Text) : Text :=
  "data-v-".toList ++ scopeId

namespace Fragments

/-
  The entries generated for a component.  A scope id that
  was written by hand has no effect on them.
-/
def ofParams
    (source : Source)
    (scopeId : Text)
    (names : Names)
    (params : Params) : Fragments :=
  let styles := params.styles.map
    (Styles.classify source scopeId)
  let isScoped := styles.any fun o => o.isScoped
  let scope := if isScoped then some scopeId else none
  let template := params.template.bind (templateOf scope)
  { scopeId := scope.map fun id =>
      .keyValue scopeIdName (.str (scopeAttribute id))
    compiled := template.map fun _ =>
      .keyValue compiledName (.bool true)
    template := template
    styles := (styles.filter fun o => o.changed).map fun o =>
      .keyValue names.styles o.node
    isScoped := isScoped }

/- The request of the template, if it is compiled. -/
def templateRequest?
    (f : Fragments) : Option Text :=
  f.template.map Prod.fst

/-
  The generated entries in order, each with the name of
  the entry that it replaces.
-/
def slots
    (f : Fragments)
    (names : Names) : List (Text × PropNode) :=
  (f.scopeId.map fun p => (scopeIdName, p)).toList ++
    (f.compiled.map fun p => (compiledName, p)).toList ++
    (f.template.map fun t => (names.template, t.2)).toList ++
    (f.styles.map fun p => (names.styles, p)).toList

end Fragments

end Component
end ComponentLoader
