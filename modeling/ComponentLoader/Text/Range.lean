import ComponentLoader.Text.Basic

/-
  This file defines sets of characters given by ranges of
  code points.

  Key definitions include:
    * `Text.CharRange`
    * `Text.CharRange.has`
    * `Text.inRanges`
-/

namespace ComponentLoader
namespace Text

------------------------------------------------------------
-- Ranges of characters
------------------------------------------------------------

/- The code points from the first to the second. -/
abbrev CharRange :=
  Nat × Nat

/- Whether a character is in a range. -/
def CharRange.has
    (r : CharRange)
    (c : Char) : Bool :=
  r.1 ≤ c.toNat && c.toNat ≤ r.2

/- Whether a character is in one of several ranges. -/
def inRanges
    (ranges : List CharRange)
    (c : Char) : Bool :=
  ranges.any fun r => r.has c

end Text
end ComponentLoader
