import ComponentLoader.Text.Identifier

/-
  This file defines the search for a keyword that stands
  alone, and is not part of a longer identifier.

  Key definitions include:
    * `Text.isBoundary`
    * `Text.findKeywordFrom`
    * `Text.findKeyword`
-/

namespace ComponentLoader
namespace Text

------------------------------------------------------------
-- Keywords
------------------------------------------------------------

/- Whether what is next to a keyword leaves it alone. -/
def isBoundary : Option Char → Bool
  | none => true
  | some c => !isPlainPart c

/-
  The offset after the first keyword that stands alone.
  `before` is the character before the text at hand, whose
  offset is `pos`.  Of an occurrence that does not stand
  alone, `skip` characters are left to pass over.
-/
def findKeywordFrom
    (keyword : Text) :
    Nat → Option Char → Text → Nat → Option Nat
  | _, _, [], _ => none
  | skip + 1, _, c :: cs, pos =>
      findKeywordFrom keyword skip (some c) cs
        (pos + c.utf8Size)
  | 0, before, c :: cs, pos =>
      match after? keyword (c :: cs) with
      | none =>
          findKeywordFrom keyword 0 (some c) cs
            (pos + c.utf8Size)
      | some rest =>
          if isBoundary before && isBoundary rest.head? then
            some (pos + keyword.size)
          else
            findKeywordFrom keyword (keyword.length - 1)
              (some c) cs (pos + c.utf8Size)

/- The offset after the first keyword standing alone. -/
def findKeyword
    (keyword t : Text) : Option Nat :=
  findKeywordFrom keyword 0 none t 0

end Text
end ComponentLoader
