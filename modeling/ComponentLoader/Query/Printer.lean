import ComponentLoader.Query.Basic
import ComponentLoader.Query.Escape

/-
  This file defines how a query is written as a string.

  A list is written with empty brackets, or with indices
  when one of its items has brackets of its own.

  Key definitions include:
    * `Query.Value.pieces`
    * `Query.render`
-/

namespace ComponentLoader
namespace Query
namespace Value

------------------------------------------------------------
-- The pieces of a value
------------------------------------------------------------

/- A key followed by a bracketed segment. -/
def bracketed
    (key segment : Text) : Text :=
  key ++ ['['] ++ segment ++ [']']

mutual

/- The pieces written for a value under a written key. -/
def pieces
    (key : Text) : Value → List Text
  | flag => [key]
  | text t => [key ++ ['='] ++ escape t]
  | list items =>
      if items.any isNested then
        indexedPieces key 0 items
      else
        plainPieces (bracketed key []) items
  | repeated items => plainPieces key items
  | map entries => entryPieces key entries
termination_by structural v => v

/- The pieces of items under one key. -/
def plainPieces
    (key : Text) : List Value → List Text
  | [] => []
  | item :: rest => pieces key item ++ plainPieces key rest
termination_by structural vs => vs

/- The pieces of items under consecutive indices. -/
def indexedPieces
    (key : Text)
    (i : Nat) : List Value → List Text
  | [] => []
  | item :: rest =>
      pieces (bracketed key (Text.ofNat i)) item ++
        indexedPieces key (i + 1) rest
termination_by structural vs => vs

/- The pieces of the entries of a map. -/
def entryPieces
    (key : Text) : List (Text × Value) → List Text
  | [] => []
  | (sub, item) :: rest =>
      pieces (bracketed key (escape sub)) item ++
        entryPieces key rest
termination_by structural entries => entries

end

end Value

------------------------------------------------------------
-- Writing
------------------------------------------------------------

/- The string of a query, without a question mark. -/
def render
    (q : Query) : Text :=
  Text.join ['&']
    (q.params.flatMap fun entry =>
      entry.2.pieces (escape entry.1))

end Query
end ComponentLoader
