import ComponentLoader.Text.Quoted
import ComponentLoader.Text.Utf8

/-
  This file defines the escapes of a query string.

  Writing escapes only the characters that would change
  how a query splits.  Reading turns `+` into a space and
  every complete two-digit escape into its byte, leaves
  other percent signs alone, and reads the bytes it gets
  as UTF-8 with replacements for malformed parts.

  Key definitions include:
    * `Query.escapeChar`
    * `Query.escape`
    * `Query.unescapeBytes`
    * `Query.unescape`
-/

namespace ComponentLoader
namespace Query

------------------------------------------------------------
-- Writing
------------------------------------------------------------

/- A character as it is written in a query. -/
def escapeChar
    (c : Char) : Text :=
  if c = '%' then ['%', '2', '5']
  else if c = '&' then ['%', '2', '6']
  else if c = '=' then ['%', '3', 'D']
  else if c = '#' then ['%', '2', '3']
  else if c = '+' then ['%', '2', 'B']
  else if c = ' ' then ['%', '2', '0']
  else [c]

/- A text as it is written in a query. -/
def escape
    (t : Text) : Text :=
  t.flatMap escapeChar

------------------------------------------------------------
-- Reading
------------------------------------------------------------

/- The value of a byte that is a hexadecimal digit. -/
def hexByte?
    (b : UInt8) : Option Nat :=
  Text.hexValue? (Char.ofNat b.toNat)

/- The byte written by two hexadecimal digits. -/
def escapedByte?
    (hi lo : UInt8) : Option UInt8 :=
  match hexByte? hi, hexByte? lo with
  | some h, some l => some (UInt8.ofNat (h * 16 + l))
  | _, _ => none

/-
  The bytes meant by a written sequence.  A percent sign
  stands for itself unless two hexadecimal digits follow.
-/
def unescapeBytes : List UInt8 → List UInt8
  | [] => []
  | [b] => [if b = 0x2b then 0x20 else b]
  | [b, b'] =>
      (if b = 0x2b then 0x20 else b) :: unescapeBytes [b']
  | b :: hi :: lo :: rest =>
      if b = 0x25 then
        match escapedByte? hi lo with
        | some byte => byte :: unescapeBytes rest
        | none => b :: unescapeBytes (hi :: lo :: rest)
      else
        (if b = 0x2b then 0x20 else b) ::
          unescapeBytes (hi :: lo :: rest)

/- The text meant by a written text. -/
def unescape
    (t : Text) : Text :=
  Utf8.decodeLossy (unescapeBytes (Utf8.encode t))

end Query
end ComponentLoader
