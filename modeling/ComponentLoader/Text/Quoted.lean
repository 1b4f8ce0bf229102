import ComponentLoader.Text.Basic

/-
  This file defines hexadecimal digits and the string
  literal of a text in generated code.

  Key definitions include:
    * `Text.hex`
    * `Text.hexValue?`
    * `Text.quoteChar`
    * `Text.quote`
-/

namespace ComponentLoader
namespace Text

------------------------------------------------------------
-- Hexadecimal digits
------------------------------------------------------------

/- The lower-case hexadecimal digits of a number. -/
def hex
    (n : Nat) : Text :=
  Nat.toDigits 16 n

/- Digits padded with zeros on the left. -/
def padLeft
    (width : Nat)
    (digits : Text) : Text :=
  List.replicate (width - digits.length) '0' ++ digits

/- The value of a hexadecimal digit of either case. -/
def hexValue?
    (c : Char) : Option Nat :=
  if '0' ≤ c && c ≤ '9' then
    some (c.toNat - '0'.toNat)
  else if 'a' ≤ c && c ≤ 'f' then
    some (c.toNat - 'a'.toNat + 10)
  else if 'A' ≤ c && c ≤ 'F' then
    some (c.toNat - 'A'.toNat + 10)
  else
    none

------------------------------------------------------------
-- String literals of generated code
------------------------------------------------------------

/-
  A character inside a double-quoted string literal.
  Control characters are escaped, by a letter where there
  is one and by four hexadecimal digits otherwise.
-/
def quoteChar
    (c : Char) : Text :=
  if c = '"' then ['\\', '"']
  else if c = '\\' then ['\\', '\\']
  else if c = '\x08' then ['\\', 'b']
  else if c = '\x0c' then ['\\', 'f']
  else if c = '\n' then ['\\', 'n']
  else if c = '\r' then ['\\', 'r']
  else if c = '\t' then ['\\', 't']
  else if c.toNat < 0x20 then
    ['\\', 'u'] ++ padLeft 4 (hex c.toNat)
  else
    [c]

/- The double-quoted string literal of a text. -/
def quote
    (t : Text) : Text :=
  '"' :: t.flatMap quoteChar ++ ['"']

end Text
end ComponentLoader
