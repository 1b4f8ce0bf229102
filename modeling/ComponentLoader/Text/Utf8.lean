import ComponentLoader.Text.Basic

/-
  This file defines the UTF-8 form of a text and two ways
  back from bytes: a strict one that fails on malformed
  input, and a lossy one that puts U+FFFD for every
  maximal malformed part.

  Key definitions include:
    * `Utf8.encode`
    * `Utf8.Head`
    * `Utf8.head`
    * `Utf8.decodeLossy`
    * `Utf8.decode?`
-/

namespace ComponentLoader
namespace Utf8

------------------------------------------------------------
-- Encoding
------------------------------------------------------------

/- The UTF-8 form of a text. -/
def encode
    (t : Text) : List UInt8 :=
  t.flatMap String.utf8EncodeChar

------------------------------------------------------------
-- The character at the head of a byte sequence
------------------------------------------------------------

/-
  What a byte sequence starts with: a character, or a
  malformed part.  `width` is the number of bytes of it.
-/
structure Head where
  char? : Option Char
  width : Nat

/- A byte that continues a character. -/
def isTail
    (b : Nat) : Bool :=
  0x80 ≤ b && b ≤ 0xbf

/-
  The least and the greatest byte that may follow a byte
  which starts a character of three or four bytes.
-/
def secondBounds
    (first : Nat) : Nat × Nat :=
  if first == 0xe0 then (0xa0, 0xbf)
  else if first == 0xed then (0x80, 0x9f)
  else if first == 0xf0 then (0x90, 0xbf)
  else if first == 0xf4 then (0x80, 0x8f)
  else (0x80, 0xbf)

/- A malformed part of the given number of bytes. -/
def malformed
    (width : Nat) : Head :=
  { char? := none, width := width }

/- A character of the given code and number of bytes. -/
def character
    (code width : Nat) : Head :=
  { char? := some (Char.ofNat code), width := width }

/-
  The head of the sequence of `first` and `rest`.  A
  malformed part is as long as some well-formed character
  agrees with it, and at least one byte.
-/
def head
    (first : Nat)
    (rest : List UInt8) : Head :=
  let bounds := secondBounds first
  if first < 0x80 then
    character first 1
  else if 0xc2 ≤ first && first ≤ 0xdf then
    match rest with
    | b₁ :: _ =>
        if isTail b₁.toNat then
          character
            ((first - 0xc0) * 0x40 + (b₁.toNat - 0x80)) 2
        else
          malformed 1
    | [] => malformed 1
  else if 0xe0 ≤ first && first ≤ 0xef then
    match rest with
    | b₁ :: more =>
        if bounds.1 ≤ b₁.toNat && b₁.toNat ≤ bounds.2 then
          match more with
          | b₂ :: _ =>
              if isTail b₂.toNat then
                character
                  ((first - 0xe0) * 0x1000 +
                    (b₁.toNat - 0x80) * 0x40 +
                    (b₂.toNat - 0x80)) 3
              else
                malformed 2
          | [] => malformed 2
        else
          malformed 1
    | [] => malformed 1
  else if 0xf0 ≤ first && first ≤ 0xf4 then
    match rest with
    | b₁ :: more =>
        if bounds.1 ≤ b₁.toNat && b₁.toNat ≤ bounds.2 then
          match more with
          | b₂ :: last =>
              if isTail b₂.toNat then
                match last with
                | b₃ :: _ =>
                    if isTail b₃.toNat then
                      character
                        ((first - 0xf0) * 0x40000 +
                          (b₁.toNat - 0x80) * 0x1000 +
                          (b₂.toNat - 0x80) * 0x40 +
                          (b₃.toNat - 0x80)) 4
                    else
                      malformed 3
                | [] => malformed 3
              else
                malformed 2
          | [] => malformed 2
        else
          malformed 1
    | [] => malformed 1
  else
    malformed 1

------------------------------------------------------------
-- Decoding
------------------------------------------------------------

/- The character that stands for a malformed part. -/
def replacement : Char :=
  '\ufffd'

/-
  The heads of a byte sequence in order.  `skip` bytes at
  its start belong to the head before it.
-/
def headsFrom
    (skip : Nat) : List UInt8 → List Head
  | [] => []
  | b :: bs =>
      match skip with
      | n + 1 => headsFrom n bs
      | 0 =>
          let h := head b.toNat bs
          h :: headsFrom (h.width - 1) bs

/- The heads of a byte sequence in order. -/
def heads
    (bytes : List UInt8) : List Head :=
  headsFrom 0 bytes

/- The text of bytes, with replacements if malformed. -/
def decodeLossy
    (bytes : List UInt8) : Text :=
  (heads bytes).map fun h => h.char?.getD replacement

/- The text of bytes, if they are well formed. -/
def decode?
    (bytes : List UInt8) : Option Text :=
  (heads bytes).mapM fun h => h.char?

end Utf8
end ComponentLoader
