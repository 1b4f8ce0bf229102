import ComponentLoader.Text.Basic

/-
  This file defines the blank characters, the characters
  that end a line of a script, and trimming.

  Key definitions include:
    * `Text.isBlank`
    * `Text.trimStart`
    * `Text.trimEnd`
    * `Text.trim`
    * `Text.isLineEnd`
-/

namespace ComponentLoader
namespace Text

------------------------------------------------------------
-- Blank characters
------------------------------------------------------------

/-
  The characters with the Unicode property `White_Space`.
  The byte-order mark is not one of them.
-/
def isBlank
    (c : Char) : Bool :=
  let n := c.toNat
  (0x09 ≤ n && n ≤ 0x0d) || n == 0x20 || n == 0x85 ||
    n == 0xa0 || n == 0x1680 ||
    (0x2000 ≤ n && n ≤ 0x200a) ||
    n == 0x2028 || n == 0x2029 || n == 0x202f ||
    n == 0x205f || n == 0x3000

/- The characters that end a line of a script. -/
def isLineEnd
    (c : Char) : Bool :=
  c == '\n' || c == '\r' ||
    c == '\u2028' || c == '\u2029'

/- The byte-order mark. -/
def byteOrderMark : Char :=
  '\ufeff'

------------------------------------------------------------
-- Trimming
------------------------------------------------------------

/- A text without the blanks at its start. -/
def trimStart
    (t : Text) : Text :=
  t.dropWhile isBlank

/- A text without the blanks at its end. -/
def trimEnd
    (t : Text) : Text :=
  (t.reverse.dropWhile isBlank).reverse

/- A text without the blanks at both ends. -/
def trim
    (t : Text) : Text :=
  trimEnd (trimStart t)

/- The blanks at the start of a text. -/
def leadingBlanks
    (t : Text) : Text :=
  t.takeWhile isBlank

/- The blanks at the end of a text. -/
def trailingBlanks
    (t : Text) : Text :=
  (t.reverse.takeWhile isBlank).reverse

end Text
end ComponentLoader
