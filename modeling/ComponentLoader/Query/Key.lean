import ComponentLoader.Text.Basic

/-
  This file defines how the key of a query parameter is
  split into a root and its bracketed segments.

  Only a clean run of segments after a non-empty root is
  split; every other key is a root on its own.

  Key definitions include:
    * `Query.Key`
    * `Query.Key.segmentsFrom`
    * `Query.Key.split`
    * `Query.Key.isIndex`
    * `Query.Key.index?`
-/

namespace ComponentLoader
namespace Query

------------------------------------------------------------
-- Roots and segments
------------------------------------------------------------

/- A root and the segments that follow it. -/
structure Key where
  root : Text
  segments : List Text
  deriving DecidableEq

namespace Key

/-
  The segments of a run of brackets.  `opened` holds the
  segment being read, last character first, or nothing
  between two segments.
-/
def segmentsFrom : Option Text → Text → Option (List Text)
  | none, [] => some []
  | some _, [] => none
  | none, c :: cs =>
      if c = '[' then segmentsFrom (some []) cs else none
  | some opened, c :: cs =>
      if c = ']' then
        match segmentsFrom none cs with
        | some segments => some (opened.reverse :: segments)
        | none => none
      else
        segmentsFrom (some (c :: opened)) cs

/- Split a key into its root and segments. -/
def split
    (key : Text) : Key :=
  let root := key.takeWhile (· ≠ '[')
  let rest := key.dropWhile (· ≠ '[')
  if root.isEmpty then
    { root := key, segments := [] }
  else
    match segmentsFrom none rest with
    | some segments => { root := root, segments := segments }
    | none => { root := key, segments := [] }

------------------------------------------------------------
-- List positions
------------------------------------------------------------

/-
  A segment that addresses a list: digits only, or nothing
  at all for the next free position.
-/
def isIndex
    (segment : Text) : Bool :=
  segment.all Char.isDigit

/- The number of decimal digits. -/
def digitsValue
    (digits : Text) : Nat :=
  digits.foldl
    (fun n c => n * 10 + (c.toNat - '0'.toNat)) 0

/-
  The position a segment of digits addresses.  Nothing and
  numbers of more than 64 bits address none.
-/
def index?
    (segment : Text) : Option Nat :=
  if segment.isEmpty then
    none
  else
    let n := digitsValue segment
    if n < UInt64.size then some n else none

end Key

end Query
end ComponentLoader
