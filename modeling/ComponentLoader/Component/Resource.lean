import ComponentLoader.Path
import ComponentLoader.Query.Request

/-
  This file defines the requests for the template and the
  styles of a component.

  Key definitions include:
    * `Resource.Kind`
    * `Resource.language?`
    * `Resource.query`
    * `Resource.request`
-/

namespace ComponentLoader
namespace Resource

------------------------------------------------------------
-- Kinds
------------------------------------------------------------

/- What a resource is to its component. -/
inductive Kind where
  | template
  | style
  deriving DecidableEq, Inhabited

/- The name of a kind in a query. -/
def Kind.name : Kind → Text
  | template => "template".toList
  | style => "style".toList

------------------------------------------------------------
-- Queries
------------------------------------------------------------

/- The language of a resource: its path's extension. -/
def language?
    (request : Text) : Option Text :=
  match Path.extension? (Request.splitText request).1 with
  | some ext => if ext.isEmpty then none else some ext
  | none => none

/- Write a text if there is one. -/
def setIf
    (q : Query)
    (key : Text) : Option Text → Query
  | some value => q.set key value
  | none => q

/-
  The parameters of a resource.  With a scope id, it is
  compiled for that scope.
-/
def query
    (kind : Kind)
    (request : Text)
    (scope : Option Text) : Query :=
  let base :=
    setIf
      ((Query.empty.flag "vue".toList).set
        "type".toList kind.name)
      "lang".toList (language? request)
  let indexed :=
    match kind with
    | .style => base.set "index".toList "0".toList
    | .template => base
  match scope with
  | some id =>
      (indexed.set "id".toList id).set
        "scoped".toList "true".toList
  | none => indexed

/- The request of a resource with its parameters. -/
def request
    (kind : Kind)
    (path : Text)
    (scope : Option Text) : Text :=
  Request.extend path (query kind path scope)

end Resource
end ComponentLoader
