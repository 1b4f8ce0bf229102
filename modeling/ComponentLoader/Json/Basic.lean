import ComponentLoader.Text.Quoted

/-
  This file defines JSON values and strict reading.

  A string may be written with escapes of halves of a
  surrogate pair; one with an unpaired half has no text.
  Objects keep all members in order, repeated names
  included.

  Key definitions include:
    * `Surrogates.Unit`
    * `Surrogates.text?`
    * `Json`
    * `Json.parse?`
-/

namespace ComponentLoader

------------------------------------------------------------
-- Surrogate Halves
------------------------------------------------------------

namespace Surrogates

/- The first half of a pair. -/
def isLead
    (n : Nat) : Bool :=
  0xd800 ≤ n && n ≤ 0xdbff

/- The second half of a pair. -/
def isTrail
    (n : Nat) : Bool :=
  0xdc00 ≤ n && n ≤ 0xdfff

/- The code point of a pair of halves. -/
def pair
    (lead trail : Nat) : Nat :=
  0x10000 + (lead - 0xd800) * 0x400 + (trail - 0xdc00)

/-
  The text of code points in which a pair of halves counts
  as one.  There is none when a half stands alone.
-/
def text? : List Nat → Option Text
  | [] => some []
  | [n] =>
      if isLead n || isTrail n then
        none
      else
        some [Char.ofNat n]
  | n :: m :: rest =>
      if isLead n then
        if isTrail m then
          (text? rest).map (Char.ofNat (pair n m) :: ·)
        else
          none
      else if isTrail n then
        none
      else
        (text? (m :: rest)).map (Char.ofNat n :: ·)

end Surrogates

------------------------------------------------------------
-- Values
------------------------------------------------------------

/- A JSON value. -/
inductive Json where
  | null
  | bool (value : Bool)
  | number
  | string (value : Option Text)
  | array (items : List Json)
  | object (members : List (Text × Json))

namespace Json

------------------------------------------------------------
-- Blanks And Words
------------------------------------------------------------

/- The blanks between tokens. -/
def isBlank
    (c : Char) : Bool :=
  c == ' ' || c == '\n' || c == '\t' || c == '\r'

/- Skip blanks. -/
def skip
    (t : Text) : Text :=
  t.dropWhile isBlank

------------------------------------------------------------
-- Strings
------------------------------------------------------------

/- The number of four hexadecimal digits. -/
def hex4?
    (a b c d : Char) : Option Nat :=
  match Text.hexValue? a, Text.hexValue? b,
      Text.hexValue? c, Text.hexValue? d with
  | some a, some b, some c, some d =>
      some (((a * 16 + b) * 16 + c) * 16 + d)
  | _, _, _, _ => none

/- The code point of an escape by one letter. -/
def letterEscape?
    (c : Char) : Option Nat :=
  if c == '"' || c == '\\' || c == '/' then some c.toNat
  else if c == 'b' then some 8
  else if c == 'f' then some 12
  else if c == 'n' then some 10
  else if c == 'r' then some 13
  else if c == 't' then some 9
  else none

/-
  The code points of a string after its opening quote, and
  what follows its closing quote.
-/
def stringUnits : Text → Option (List Nat × Text)
  | [] => none
  | '"' :: rest => some ([], rest)
  | '\\' :: 'u' :: a :: b :: c :: d :: rest =>
      match hex4? a b c d with
      | none => none
      | some n =>
          (stringUnits rest).map fun r => (n :: r.1, r.2)
  | '\\' :: c :: rest =>
      match letterEscape? c with
      | none => none
      | some n =>
          (stringUnits rest).map fun r => (n :: r.1, r.2)
  | c :: rest =>
      if c.toNat < 0x20 || c == '\\' then
        none
      else
        (stringUnits rest).map fun r =>
          (c.toNat :: r.1, r.2)

------------------------------------------------------------
-- Numbers
------------------------------------------------------------

/- What follows one or more digits. -/
def digits1
    (t : Text) : Option Text :=
  match t with
  | c :: cs =>
      if c.isDigit then
        some (cs.dropWhile Char.isDigit)
      else
        none
  | [] => none

/- What follows an optional fraction. -/
def fraction
    (t : Text) : Option Text :=
  match t with
  | '.' :: cs => digits1 cs
  | _ => some t

/- What follows an optional exponent. -/
def exponent
    (t : Text) : Option Text :=
  match t with
  | c :: cs =>
      if c == 'e' || c == 'E' then
        match cs with
        | '+' :: rest => digits1 rest
        | '-' :: rest => digits1 rest
        | _ => digits1 cs
      else
        some t
  | [] => some t

/- What follows a number. -/
def afterNumber
    (t : Text) : Option Text :=
  let unsigned :=
    match t with
    | '-' :: cs => cs
    | _ => t
  let whole :=
    match unsigned with
    | '0' :: cs =>
        if (cs.head?.map Char.isDigit).getD false then
          none
        else
          some cs
    | _ => digits1 unsigned
  (whole.bind fraction).bind exponent

------------------------------------------------------------
-- Reading
------------------------------------------------------------

mutual

/- A value and what follows it. -/
def value : Nat → Text → Option (Json × Text)
  | 0, _ => none
  | fuel + 1, t =>
      match skip t with
      | [] => none
      | '"' :: rest =>
          (stringUnits rest).map fun r =>
            (string (Surrogates.text? r.1), r.2)
      | '[' :: rest =>
          match skip rest with
          | ']' :: after => some (array [], after)
          | _ =>
              (items fuel rest).map fun r =>
                (array r.1, r.2)
      | '{' :: rest =>
          match skip rest with
          | '}' :: after => some (object [], after)
          | _ =>
              (members fuel rest).map fun r =>
                (object r.1, r.2)
      | 'n' :: 'u' :: 'l' :: 'l' :: rest =>
          some (null, rest)
      | 't' :: 'r' :: 'u' :: 'e' :: rest =>
          some (bool true, rest)
      | 'f' :: 'a' :: 'l' :: 's' :: 'e' :: rest =>
          some (bool false, rest)
      | other =>
          (afterNumber other).map fun rest =>
            (number, rest)

/- The items of an array up to its closing bracket. -/
def items : Nat → Text → Option (List Json × Text)
  | 0, _ => none
  | fuel + 1, t =>
      match value fuel t with
      | none => none
      | some (item, rest) =>
          match skip rest with
          | ',' :: more =>
              (items fuel more).map fun r =>
                (item :: r.1, r.2)
          | ']' :: after => some ([item], after)
          | _ => none

/- The members of an object up to its closing brace. -/
def members :
    Nat → Text → Option (List (Text × Json) × Text)
  | 0, _ => none
  | fuel + 1, t =>
      match skip t with
      | '"' :: rest =>
          match stringUnits rest with
          | none => none
          | some (units, rest) =>
              match Surrogates.text? units, skip rest with
              | some name, ':' :: rest =>
                  match value fuel rest with
                  | none => none
                  | some (item, rest) =>
                      match skip rest with
                      | ',' :: more =>
                          (members fuel more).map fun r =>
                            ((name, item) :: r.1, r.2)
                      | '}' :: after =>
                          some ([(name, item)], after)
                      | _ => none
              | _, _ => none
      | _ => none

end

/- The value written by a whole text. -/
def parse?
    (t : Text) : Option Json :=
  match value (t.length + 1) t with
  | some (v, rest) =>
      if (skip rest).isEmpty then some v else none
  | none => none

end Json
end ComponentLoader
