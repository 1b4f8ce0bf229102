/-
  This file defines texts and the cuts made in them.

  A text is a list of characters.  Positions in a text
  are counted in bytes of its UTF-8 form, so a position
  may fall inside a character; every cut at a position
  says what it does there.

  Key definitions include:
    * `Text`
    * `Text.size`
    * `Text.splitAt?`
    * `Text.slice?`
    * `Text.between?`
    * `Text.splitOnce`
    * `Text.splitAll`
    * `Text.join`
    * `Text.after?`
    * `Text.occursIn`
-/

namespace ComponentLoader

------------------------------------------------------------
-- Texts and their size
------------------------------------------------------------

/- A text is a list of characters. -/
abbrev Text :=
  List Char

namespace Text

/- The number of bytes of the UTF-8 form of a text. -/
def size : Text → Nat
  | [] => 0
  | c :: cs => c.utf8Size + size cs

/- The size of a joined text is the sum of the sizes. -/
theorem size_append
    (s t : Text) :
    size (s ++ t) = size s + size t := by
  induction s with
  | nil => simp [size]
  | cons c cs ih => simp [size, ih, Nat.add_assoc]

------------------------------------------------------------
-- Cuts at a byte position
------------------------------------------------------------

/-
  The two parts of a text around a byte position.  There
  are none when the position is past the end or inside a
  character.
-/
def splitAt? : Nat → Text → Option (Text × Text)
  | 0, t => some ([], t)
  | _ + 1, [] => none
  | n + 1, c :: cs =>
      if n + 1 < c.utf8Size then
        none
      else
        match splitAt? (n + 1 - c.utf8Size) cs with
        | some (before, rest) => some (c :: before, rest)
        | none => none

/-
  The part of a text from one byte position to another,
  when both fall between characters.
-/
def slice?
    (t : Text)
    (lo hi : Nat) : Option Text :=
  match splitAt? lo t with
  | none => none
  | some (_, rest) =>
      match splitAt? (hi - lo) rest with
      | none => none
      | some (part, _) => some part

/-
  The part of a text between two positions, if they are in
  order, in the text and between characters.
-/
def between?
    (t : Text)
    (lo hi : Nat) : Option Text :=
  if lo ≤ hi then t.slice? lo hi else none

------------------------------------------------------------
-- Cuts at a character or a word
------------------------------------------------------------

/- The texts before and after the first separator. -/
def splitOnce
    (sep : Char) : Text → Option (Text × Text)
  | [] => none
  | c :: cs =>
      if c = sep then
        some ([], cs)
      else
        match splitOnce sep cs with
        | some (before, rest) => some (c :: before, rest)
        | none => none

/- The pieces between separators, empty ones included. -/
def splitAll
    (sep : Char) : Text → List Text
  | [] => [[]]
  | c :: cs =>
      if c = sep then
        [] :: splitAll sep cs
      else
        match splitAll sep cs with
        | [] => [[c]]
        | piece :: pieces => (c :: piece) :: pieces

/- The pieces in order, with a separator between them. -/
def join
    (sep : Text) : List Text → Text
  | [] => []
  | [t] => t
  | t :: ts => t ++ sep ++ join sep ts

/- What follows a word at the start of a text. -/
def after? : Text → Text → Option Text
  | [], t => some t
  | _ :: _, [] => none
  | w :: ws, c :: cs =>
      if w = c then after? ws cs else none

/- Whether a word occurs somewhere in a text. -/
def occursIn
    (word : Text) : Text → Bool
  | [] => word.isEmpty
  | c :: cs =>
      (after? word (c :: cs)).isSome || occursIn word cs

/- Whether a text ends with the given character. -/
def endsWith
    (last : Char)
    (t : Text) : Bool :=
  t.getLast? == some last

/- The decimal digits of a number. -/
def ofNat
    (n : Nat) : Text :=
  Nat.toDigits 10 n

end Text

end ComponentLoader
