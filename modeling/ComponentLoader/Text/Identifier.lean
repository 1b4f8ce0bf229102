import ComponentLoader.Text.Letters
import ComponentLoader.Text.Marks

/-
  This file defines the characters of identifiers: the
  plain ones, which need no quotes as a key in generated
  code, and those of scripts.

  Key definitions include:
    * `Text.isPlainStart`
    * `Text.isPlainPart`
    * `Text.isPlainIdentifier`
    * `Text.isIdentStart`
    * `Text.isIdentPart`
-/

namespace ComponentLoader
namespace Text

------------------------------------------------------------
-- Plain identifiers
------------------------------------------------------------

/- An ASCII letter, `_` or `$`. -/
def isPlainStart
    (c : Char) : Bool :=
  c.isAlpha || c == '_' || c == '$'

/- An ASCII letter or digit, `_` or `$`. -/
def isPlainPart
    (c : Char) : Bool :=
  c.isAlphanum || c == '_' || c == '$'

/- An identifier of ASCII characters. -/
def isPlainIdentifier : Text → Bool
  | [] => false
  | c :: cs => isPlainStart c && cs.all isPlainPart

------------------------------------------------------------
-- Identifiers of scripts
------------------------------------------------------------

/- A character that can start an identifier. -/
def isIdentStart
    (c : Char) : Bool :=
  if c.toNat < 0x80 then
    isPlainStart c
  else
    inRanges letterRanges c

/- A character that can stand inside an identifier. -/
def isIdentPart
    (c : Char) : Bool :=
  if c.toNat < 0x80 then
    isPlainPart c
  else
    inRanges letterRanges c || inRanges markRanges c

/- What can start an identifier can stand inside one. -/
theorem isIdentPart_of_isIdentStart
    (c : Char)
    (h : isIdentStart c = true) :
    isIdentPart c = true := by
  unfold isIdentStart at h
  unfold isIdentPart
  split at h
  · next hc =>
      simp only [hc, if_true]
      simp only [isPlainStart, Bool.or_eq_true] at h
      simp only [isPlainPart, Char.isAlphanum,
        Bool.or_eq_true]
      rcases h with (h | h) | h
      · exact Or.inl (Or.inl (Or.inl h))
      · exact Or.inl (Or.inr h)
      · exact Or.inr h
  · next hc =>
      simp [hc, h]

end Text
end ComponentLoader
