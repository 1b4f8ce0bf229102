import ComponentLoader.Text.Quoted
import ComponentLoader.Text.Unprinted

/-
  This file defines how a text is shown in a message: in
  double quotes, with everything that does not print by
  itself written as an escape.

  Key definitions include:
    * `Text.showChar`
    * `Text.shown`
-/

namespace ComponentLoader
namespace Text

------------------------------------------------------------
-- Shown characters
------------------------------------------------------------

/- A character by its number, `\u` and braces around it. -/
def showCode
    (c : Char) : Text :=
  ['\\', 'u', '{'] ++ hex c.toNat ++ ['}']

/-
  A character as it is shown.  Quotes, backslashes and the
  common controls have escapes of their own.
-/
def showChar
    (c : Char) : Text :=
  if c = '"' then ['\\', '"']
  else if c = '\\' then ['\\', '\\']
  else if c = '\n' then ['\\', 'n']
  else if c = '\r' then ['\\', 'r']
  else if c = '\t' then ['\\', 't']
  else if c.toNat = 0 then ['\\', '0']
  else if c.toNat < 0x20 || c.toNat == 0x7f then showCode c
  else if c.toNat < 0x80 then [c]
  else if inRanges unprintedRanges c then showCode c
  else [c]

/- A text as it is shown. -/
def shown
    (t : Text) : Text :=
  '"' :: t.flatMap showChar ++ ['"']

end Text
end ComponentLoader
