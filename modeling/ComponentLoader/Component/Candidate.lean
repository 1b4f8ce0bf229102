import ComponentLoader.Literal.Basic

/-
  This file defines which classes of a script can be
  components.

  In a module these are classes, exported classes and the
  class that is the default export; in a namespace, only
  exported classes.  A class without the decorator is
  searched for namespaces; one with it is not.

  Key definitions include:
    * `Candidate`
    * `Candidate.ofModule`
    * `Candidate.ofNamespaces`
-/

namespace ComponentLoader

------------------------------------------------------------
-- Candidates
------------------------------------------------------------

/- A class with the decorator. -/
structure Candidate where
  /- The namespaces around it, the outermost first. -/
  scope : List Text
  /- The name of the class, if it has one. -/
  name : Option Text
  /- The class. -/
  decl : Script.Class
  /- The call that is its decorator. -/
  call : Script.Call

namespace Candidate

/- A class that may be a component of a module. -/
def inModule : Script.Shape →
    Option (Option Text × Script.Class)
  | .classDecl name decl => some (some name, decl)
  | .exportClass name decl => some (some name, decl)
  | .exportDefault name decl => some (name, decl)
  | .expression _ => none
  | .other => none

/- A class that may be a component of a namespace. -/
def inNamespace : Script.Shape →
    Option (Option Text × Script.Class)
  | .exportClass name decl => some (some name, decl)
  | _ => none

/- The candidate that a class is, if it is decorated. -/
def ofClass?
    (decorator : Text)
    (scope : List Text) :
    Option (Option Text × Script.Class) → Option Candidate
  | some (name, decl) =>
      (decl.findCall? decorator).map fun call =>
        { scope := scope
          name := name
          decl := decl
          call := call }
  | none => none

------------------------------------------------------------
-- The Search
------------------------------------------------------------

mutual

/- The candidates in namespaces inside others. -/
def ofNamespaces
    (decorator : Text)
    (scope : List Text) :
    List Script.Namespace → List Candidate
  | [] => []
  | ns :: rest =>
      ofNamespace decorator scope ns ++
        ofNamespaces decorator scope rest
termination_by structural nss => nss

/- The candidates in a namespace. -/
def ofNamespace
    (decorator : Text)
    (scope : List Text) :
    Script.Namespace → List Candidate
  | .mk (some name) items =>
      ofItems decorator (scope ++ [name]) items
  | .mk none items => ofItems decorator scope items
termination_by structural ns => ns

/- The candidates among the items of a namespace. -/
def ofItems
    (decorator : Text)
    (scope : List Text) :
    List Script.Item → List Candidate
  | [] => []
  | item :: rest =>
      ofItem decorator scope item ++
        ofItems decorator scope rest
termination_by structural items => items

/- The candidate that an item is, or those inside it. -/
def ofItem
    (decorator : Text)
    (scope : List Text) :
    Script.Item → List Candidate
  | .mk shape inner =>
      match ofClass? decorator scope (inNamespace shape) with
      | some candidate => [candidate]
      | none => ofNamespaces decorator scope inner
termination_by structural item => item

end

/- The candidates of a module, in order. -/
def ofModule
    (decorator : Text)
    (m : Script.Module) : List Candidate :=
  m.items.flatMap fun item =>
    match ofClass? decorator [] (inModule item.shape) with
    | some candidate => [candidate]
    | none => ofNamespaces decorator [] item.inner

end Candidate
end ComponentLoader
