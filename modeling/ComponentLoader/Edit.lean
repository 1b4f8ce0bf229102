import ComponentLoader.Text.Basic

/-
  This file defines edits of a text and how several of
  them are applied at once.  An edit applied at a position
  inside a character leaves no text: the program that
  applies it is aborted.

  Key definitions include:
    * `Edit`
    * `Edit.sort`
    * `Edit.isApplied`
    * `Edit.applyFrom?`
    * `Edit.applyAll?`
-/

namespace ComponentLoader

------------------------------------------------------------
-- Edits
------------------------------------------------------------

/-
  A text to stand in place of what is between two byte
  offsets; an insertion if these are equal.
-/
structure Edit where
  start : Nat
  stop : Nat
  text : Text
  deriving DecidableEq, Inhabited

namespace Edit

------------------------------------------------------------
-- Order
------------------------------------------------------------

/- Insert an edit before those that start no earlier. -/
def insertSorted
    (e : Edit) : List Edit → List Edit
  | [] => [e]
  | first :: rest =>
      if e.start ≤ first.start then
        e :: first :: rest
      else
        first :: insertSorted e rest

/- Edits by start; those of one start keep their order. -/
def sort
    (edits : List Edit) : List Edit :=
  edits.foldr insertSorted []

------------------------------------------------------------
-- Application
------------------------------------------------------------

/-
  Whether an edit is applied, if what has been written so
  far ends at `last` in a text of a size.  One that reaches
  back or past the end is skipped.
-/
def isApplied
    (size last : Nat)
    (e : Edit) : Bool :=
  last ≤ e.start && e.stop ≤ size

/-
  What becomes of a text from `last` on, by edits in the
  order of their starts.  There is no text if a slice that
  is kept is not in order or would cut a character.
-/
def applyFrom?
    (t : Text) : Nat → List Edit → Option Text
  | last, [] => t.between? last t.size
  | last, e :: edits =>
      if isApplied t.size last e then
        match t.between? last e.start,
            applyFrom? t e.stop edits with
        | some gap, some rest => some (gap ++ e.text ++ rest)
        | _, _ => none
      else
        applyFrom? t last edits

/- Apply edits to a text, unless one cuts a character. -/
def applyAll?
    (t : Text)
    (edits : List Edit) : Option Text :=
  applyFrom? t 0 (sort edits)

end Edit
end ComponentLoader
