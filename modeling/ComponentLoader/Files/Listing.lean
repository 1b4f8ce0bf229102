import ComponentLoader.Files.Tree

/-
  This file defines which files stand below a directory,
  in order of their names.

  Key definitions include:
    * `Files.nameLe`
    * `Files.Tree.listing`
-/

namespace ComponentLoader
namespace Files

------------------------------------------------------------
-- Order
------------------------------------------------------------

/- Names in the order of their characters' codes. -/
def nameLe : Text → Text → Bool
  | [], _ => true
  | _ :: _, [] => false
  | a :: as, b :: bs =>
      if a.toNat < b.toNat then true
      else if b.toNat < a.toNat then false
      else nameLe as bs

/- Insert a named thing among others in order. -/
def insertNamed
    {α : Type}
    (entry : Text × α) : List (Text × α) → List (Text × α)
  | [] => [entry]
  | first :: rest =>
      if nameLe entry.1 first.1 then
        entry :: first :: rest
      else
        first :: insertNamed entry rest

/- Named things in order of their names. -/
def sortNamed
    {α : Type}
    (entries : List (Text × α)) : List (Text × α) :=
  entries.foldr insertNamed []

------------------------------------------------------------
-- Listings
------------------------------------------------------------

/- The names of something under those of its directory. -/
def below
    (entry : Text × List (List Text)) : List (List Text) :=
  entry.2.map fun names => entry.1 :: names

mutual

/-
  The files below a tree, each by the names that lead to
  it.  A directory is listed where its name stands.
-/
def Tree.listing : Tree → List (List Text)
  | .file _ => [[]]
  | .dir children =>
      (sortNamed (Tree.listings children)).flatMap below
termination_by structural t => t

/- The files below each of some named trees. -/
def Tree.listings :
    List (Text × Tree) → List (Text × List (List Text))
  | [] => []
  | entry :: rest =>
      Tree.entryListing entry :: Tree.listings rest
termination_by structural entries => entries

/- The files below a named tree. -/
def Tree.entryListing :
    Text × Tree → Text × List (List Text)
  | (name, t) => (name, t.listing)
termination_by structural entry => entry

end

end Files
end ComponentLoader
