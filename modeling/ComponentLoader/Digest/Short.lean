import ComponentLoader.Digest.Blake3
import ComponentLoader.Text.Quoted
import ComponentLoader.Text.Utf8

/-
  This file defines the short digests that identify files
  and modules: the first eight hexadecimal digits of the
  BLAKE3 digest.

  Key definitions include:
    * `Digest.short`
    * `Digest.file`
    * `Digest.module`
-/

namespace ComponentLoader
namespace Digest

------------------------------------------------------------
-- Short Digests
------------------------------------------------------------

/- The two hexadecimal digits of a byte. -/
def byteDigits
    (n : Nat) : Text :=
  Text.padLeft 2 (Text.hex n)

/- The digits of a word, its lowest byte first. -/
def wordDigits
    (w : UInt32) : Text :=
  let n := w.toNat
  byteDigits (n % 256) ++ byteDigits (n / 256 % 256) ++
    byteDigits (n / 65536 % 256) ++
    byteDigits (n / 16777216)

/- The first eight digits of the digest of a text. -/
def short
    (t : Text) : Text :=
  wordDigits
    (Blake3.word (Blake3.digest (Utf8.encode t)) 0)

/-
  The digest shared by the components of a file.  In
  development it depends on the path alone, so that ids
  stay the same across edits; in production also on the
  content.
-/
def file
    (path source : Text)
    (production : Bool) : Text :=
  if production then
    short (path ++ ['\n'] ++ source)
  else
    short path

/- The digest of a module's request. -/
def module
    (request : Text) : Text :=
  short request

end Digest
end ComponentLoader
