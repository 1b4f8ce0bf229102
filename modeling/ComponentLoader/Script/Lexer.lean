import ComponentLoader.Json.Basic
import ComponentLoader.Script.Token
import ComponentLoader.Text.Blank
import ComponentLoader.Text.Identifier

/-
  This file defines how tokens are read from a text.

  Every reader takes the text at hand and its position and
  gives back the text and the position after what it read.
  Which reader applies is decided by the grammar: only it
  knows whether a slash divides or opens a regular
  expression, and where templates and markup text go on.

  Key definitions include:
    * `Script.Place`
    * `Script.skipGap`
    * `Script.scanWord`
    * `Script.scanNumber`
    * `Script.scanString`
    * `Script.scanTemplate`
    * `Script.scanRegex`
    * `Script.scanPunct`
    * `Script.scanToken`
-/

namespace ComponentLoader
namespace Script

------------------------------------------------------------
-- Places In A Text
------------------------------------------------------------

/- The rest of a text and the position where it starts. -/
structure Place where
  rest : Text
  pos : Nat
  deriving Inhabited

/- The place after some characters of it. -/
def Place.after
    (p : Place)
    (read : Text) : Place :=
  { rest := p.rest.drop read.length
    pos := p.pos + read.size }

/- The place after a number of one-byte characters. -/
def Place.skip
    (p : Place)
    (n : Nat) : Place :=
  { rest := p.rest.drop n, pos := p.pos + n }

------------------------------------------------------------
-- Gaps Between Tokens
------------------------------------------------------------

/- Whether a reader is inside a comment. -/
inductive Within where
  | outside
  | line
  | block

/- What was skipped before a token. -/
structure Gap where
  /- The place of the token. -/
  next : Place
  /- Whether a line ends in the gap. -/
  newline : Bool
  /- Where the first comment of markup starts. -/
  mark : Option Nat

/- What may stand between tokens besides comments. -/
def isGapChar
    (c : Char) : Bool :=
  Text.isBlank c || c == Text.byteOrderMark ||
    c == '\u200b'

/-
  Skip blanks and comments, noting line ends.  A comment
  that is not closed goes to the end of the text.  The
  signs that open and close a comment of markup stand for
  the rest of their line, the closing one only if a line
  ends before it.
-/
def skipGap :
    Within → Text → Nat → Bool → Option Nat → Gap
  | _, [], pos, newline, mark =>
      { next := { rest := [], pos := pos }
        newline := newline
        mark := mark }
  | .outside, '/' :: '/' :: cs, pos, newline, mark =>
      skipGap .line cs (pos + 2) newline mark
  | .outside, '/' :: '*' :: cs, pos, newline, mark =>
      skipGap .block cs (pos + 2) newline mark
  | .outside, '<' :: '!' :: '-' :: '-' :: cs, pos,
      newline, mark =>
      skipGap .line cs (pos + 4) newline
        (mark.orElse fun _ => some pos)
  | .outside, c :: cs, pos, newline, mark =>
      if isGapChar c then
        skipGap .outside cs (pos + c.utf8Size)
          (newline || Text.isLineEnd c) mark
      else if newline && c = '-' &&
          cs.take 2 = ['-', '>'] then
        skipGap .line cs (pos + 1) newline
          (mark.orElse fun _ => some pos)
      else
        { next := { rest := c :: cs, pos := pos }
          newline := newline
          mark := mark }
  | .line, c :: cs, pos, newline, mark =>
      if Text.isLineEnd c then
        skipGap .outside cs (pos + c.utf8Size) true mark
      else
        skipGap .line cs (pos + c.utf8Size) newline mark
  | .block, '*' :: '/' :: cs, pos, newline, mark =>
      skipGap .outside cs (pos + 2) newline mark
  | .block, c :: cs, pos, newline, mark =>
      skipGap .block cs (pos + c.utf8Size)
        (newline || Text.isLineEnd c) mark

------------------------------------------------------------
-- Words
------------------------------------------------------------

/- Digits read so far of a hexadecimal number. -/
structure HexDigits where
  /- How many digits are still to come. -/
  missing : Nat
  /- The number of the digits read. -/
  value : Nat
  /- The number of characters read. -/
  width : Nat

/-
  Hexadecimal digits at the start of a text, as many as
  are missing.  Low lines between them are passed over.
-/
def readHex : HexDigits → Text → HexDigits
  | read, [] => read
  | read, c :: cs =>
      if read.missing = 0 then
        read
      else if c = '_' then
        readHex { read with width := read.width + 1 } cs
      else
        match Text.hexValue? c with
        | some d =>
            readHex
              { missing := read.missing - 1
                value := read.value * 16 + d
                width := read.width + 1 }
              cs
        | none => read

/-
  The number of a fixed count of hexadecimal digits and
  the number of characters they take.
-/
def hexEscape?
    (count : Nat)
    (cs : Text) : Option (Nat × Nat) :=
  let read := readHex ⟨count, 0, 0⟩ cs
  if read.missing = 0 then
    some (read.value, read.width)
  else
    none

/- A code point in braces, after the opening one. -/
def bracedEscape?
    (cs : Text) : Option (Nat × Nat) :=
  let most := cs.length + 1
  let read := readHex ⟨most, 0, 0⟩ cs
  match cs.drop read.width with
  | '}' :: _ =>
      if read.missing = most || 0x10ffff < read.value then
        none
      else
        some (read.value, read.width + 2)
  | _ => none

/- Whether a code is the first half of a surrogate pair. -/
def isHighHalf
    (n : Nat) : Bool :=
  0xd800 ≤ n && n ≤ 0xdbff

/-
  The code point of an escape after its backslash and `u`,
  and the number of characters it takes.  After the first
  half of a pair, a second escape has four digits.
-/
def unicodeEscape? : Text → Option (Nat × Nat)
  | '{' :: cs => bracedEscape? cs
  | cs =>
      match hexEscape? 4 cs with
      | none => none
      | some (n, width) =>
          match cs.drop width with
          | '\\' :: 'u' :: more =>
              if isHighHalf n &&
                  (hexEscape? 4 more).isNone then
                none
              else
                some (n, width)
          | _ => some (n, width)

/-
  A word with escapes: its name and what follows, reading
  at most `fuel` pieces.  There is none when an escape is
  malformed or no character of a word.
-/
def scanEscapedWord :
    Nat → Text → Place → Option (Text × Place)
  | 0, _, _ => none
  | fuel + 1, read, p =>
      match p.rest with
      | '\\' :: 'u' :: cs =>
          match unicodeEscape? cs with
          | none => none
          | some (n, width) =>
              let c := Char.ofNat n
              let allowed :=
                if read.isEmpty then
                  Text.isIdentStart c
                else
                  Text.isIdentPart c
              if allowed then
                scanEscapedWord fuel (c :: read)
                  (p.skip (width + 2))
              else
                none
      | c :: cs =>
          let allowed :=
            if read.isEmpty then
              Text.isIdentStart c
            else
              Text.isIdentPart c
          if allowed then
            scanEscapedWord fuel (c :: read)
              { rest := cs, pos := p.pos + c.utf8Size }
          else if read.isEmpty || c == '\\' then
            none
          else
            some (read.reverse, p)
      | [] =>
          if read.isEmpty then none else some (read.reverse, p)

/- A word at a place; it may start with an escape. -/
def scanWord
    (p : Place) : Option (Text × Bool × Place) :=
  let plain := p.rest.takeWhile Text.isIdentPart
  let next := p.after plain
  match next.rest with
  | '\\' :: _ =>
      (scanEscapedWord (p.rest.length + 1) [] p).map
        fun r => (r.1, true, r.2)
  | _ =>
      if plain.isEmpty then none else some (plain, false, next)

------------------------------------------------------------
-- Numbers
------------------------------------------------------------

/- The value of a digit of a base. -/
def digitOf?
    (base : Nat)
    (c : Char) : Option Nat :=
  match Text.hexValue? c with
  | some d => if d < base then some d else none
  | none => none

/- Digits of a base and separators at a place. -/
def scanDigits
    (base : Nat)
    (p : Place) : List Nat × Place :=
  let read := p.rest.takeWhile fun c =>
    (digitOf? base c).isSome || c == '_'
  (read.filterMap (digitOf? base), p.after read)

/- A number must not run into a word. -/
def endNumber
    (token : Token)
    (p : Place) : Token × Place :=
  match p.rest with
  | c :: _ =>
      if Text.isIdentStart c then (.invalid, p) else (token, p)
  | [] => (token, p)

/- A number in a base other than ten, after its mark. -/
def scanBased
    (base : Nat)
    (p : Place) : Token × Place :=
  let (digits, next) := scanDigits base p
  if digits.isEmpty then
    (.invalid, next)
  else
    match next.rest with
    | 'n' :: _ => (.bigint, next.skip 1)
    | _ =>
        endNumber
          (.number (Binary64.ofDigits base digits)) next

/- The number of decimal digits. -/
def decimalValue
    (digits : List Nat) : Nat :=
  digits.foldl (fun n d => n * 10 + d) 0

/- An exponent at a place, if one starts there. -/
def scanExponent
    (p : Place) : Option (Int × Place) :=
  match p.rest with
  | c :: cs =>
      if c == 'e' || c == 'E' then
        let (sign, from_) : Int × Place :=
          match cs with
          | '+' :: _ => (1, p.skip 2)
          | '-' :: _ => (-1, p.skip 2)
          | _ => (1, p.skip 1)
        let (digits, next) := scanDigits 10 from_
        if digits.isEmpty then
          none
        else
          some (sign * decimalValue digits, next)
      else
        some (0, p)
  | [] => some (0, p)

/- The rest of a decimal after its whole digits. -/
def scanFraction
    (whole : List Nat)
    (p : Place) : Token × Place :=
  let (fraction, next) : List Nat × Place :=
    match p.rest with
    | '.' :: _ => scanDigits 10 (p.skip 1)
    | _ => ([], p)
  match scanExponent next with
  | none => (.invalid, next)
  | some (exponent, last) =>
      endNumber
        (.number (Binary64.ofDecimal
          (decimalValue (whole ++ fraction))
          (exponent - fraction.length)))
        last

/- A decimal number at a place. -/
def scanDecimal
    (p : Place) : Token × Place :=
  let (digits, next) := scanDigits 10 p
  match next.rest with
  | 'n' :: _ => (.bigint, next.skip 1)
  | _ => scanFraction digits next

/-
  A number that starts with zero and goes on.  It is octal
  if its digits can be, and never one of any size.
-/
def scanZero
    (p : Place) : Token × Place :=
  let (digits, next) := scanDigits 10 p
  if next.pos = p.pos + 1 then
    scanDecimal p
  else if digits.all (· < 8) then
    endNumber (.number (Binary64.ofDigits 8 digits)) next
  else
    scanFraction digits next

/- A number at a place. -/
def scanNumber
    (p : Place) : Token × Place :=
  match p.rest with
  | '0' :: mark :: _ =>
      if mark == 'x' || mark == 'X' then
        scanBased 16 (p.skip 2)
      else if mark == 'o' || mark == 'O' then
        scanBased 8 (p.skip 2)
      else if mark == 'b' || mark == 'B' then
        scanBased 2 (p.skip 2)
      else
        scanZero p
  | _ => scanDecimal p

------------------------------------------------------------
-- Strings
------------------------------------------------------------

/- The code point of an escape by one letter. -/
def letterCode
    (c : Char) : Nat :=
  if c == 'n' then 10
  else if c == 't' then 9
  else if c == 'r' then 13
  else if c == 'b' then 8
  else if c == 'v' then 11
  else if c == 'f' then 12
  else c.toNat

/- Whether a character is an octal digit. -/
def isOctal
    (c : Char) : Bool :=
  '0' ≤ c && c ≤ '7'

/- The value of an octal digit. -/
def octalValue
    (c : Char) : Nat :=
  c.toNat - '0'.toNat

/- An octal escape: its code and its number of digits. -/
def octalEscape
    (first : Char)
    (rest : Text) : Nat × Nat :=
  let a := octalValue first
  match rest with
  | b :: c :: _ =>
      if isOctal b then
        let ab := a * 8 + octalValue b
        if isOctal c && a < 4 then
          (ab * 8 + octalValue c, 3)
        else
          (ab, 2)
      else
        (a, 1)
  | [b] =>
      if isOctal b then (a * 8 + octalValue b, 2) else (a, 1)
  | [] => (a, 1)

/-
  The code points of an escape after its backslash, and
  the number of characters it takes; a line end means
  nothing at all.
-/
def stringEscape? : Text → Option (List Nat × Nat)
  | 'u' :: cs =>
      (unicodeEscape? cs).map fun r => ([r.1], r.2 + 1)
  | 'x' :: cs =>
      (hexEscape? 2 cs).map fun r => ([r.1], r.2 + 1)
  | '\r' :: '\n' :: _ => some ([], 2)
  | c :: cs =>
      if Text.isLineEnd c then
        some ([], 1)
      else if isOctal c then
        let (n, width) := octalEscape c cs
        some ([n], width)
      else
        some ([letterCode c], 1)
  | [] => none

/- The code points read of a string, the last first. -/
structure Units where
  /- Those up to the last escape, with it. -/
  before : List Nat
  /- Those after it. -/
  chunk : List Nat

/- All code points in order. -/
def Units.all
    (u : Units) : List Nat :=
  (u.chunk ++ u.before).reverse

/- Read one more character. -/
def Units.push
    (u : Units)
    (c : Char) : Units :=
  { u with chunk := c.toNat :: u.chunk }

/- Read an escape. -/
def Units.escape
    (u : Units)
    (codes : List Nat) : Units :=
  { before := codes ++ (u.chunk ++ u.before), chunk := [] }

/-
  The code points of a string up to its closing quote.
  `skip` characters belong to an escape.  A string that is
  not closed ends with its line, and of such a string only
  what comes after its last escape is kept.
-/
def scanUnits
    (quote : Char) :
    Nat → Units → Text → Nat → Option (List Nat × Place)
  | _, units, [], pos =>
      some (units.chunk.reverse, { rest := [], pos := pos })
  | skip + 1, units, c :: cs, pos =>
      scanUnits quote skip units cs (pos + c.utf8Size)
  | 0, units, c :: cs, pos =>
      if c = quote then
        some (units.all, { rest := cs, pos := pos + 1 })
      else if c = '\n' || c = '\r' then
        some (units.chunk.reverse,
          { rest := c :: cs, pos := pos })
      else if c = '\\' then
        match stringEscape? cs with
        | none => none
        | some (codes, width) =>
            scanUnits quote width (units.escape codes) cs
              (pos + 1)
      else
        scanUnits quote 0 (units.push c) cs
          (pos + c.utf8Size)

/- A string at a place, which starts with its quote. -/
def scanString
    (quote : Char)
    (p : Place) : Token × Place :=
  match
    scanUnits quote 0 ⟨[], []⟩ (p.rest.drop 1) (p.pos + 1)
  with
  | some (units, next) =>
      (.string (Surrogates.text? units), next)
  | none => (.invalid, p.skip 1)

------------------------------------------------------------
-- Templates, Regular Expressions And Markup
------------------------------------------------------------

/- How a stretch of a template ends. -/
inductive TemplateEnd where
  /- With the closing backtick. -/
  | closed
  /- With an expression in braces. -/
  | hole
  deriving DecidableEq

/- A stretch of a template. -/
structure Stretch where
  /- How it ends. -/
  last : TemplateEnd
  /- Whether all its escapes are well formed. -/
  cooked : Bool
  /- The place after it. -/
  next : Place

/-
  Whether what follows a backslash in a template is well
  formed: unlike a string, it has no octal escapes.
-/
def isTemplateEscape : Text → Bool
  | '0' :: c :: _ => !isOctal c
  | ['0'] => true
  | c :: cs => !isOctal c && (stringEscape? (c :: cs)).isSome
  | [] => false

/- The characters of a template up to its next end. -/
def scanTemplate : Bool → Text → Nat → Option Stretch
  | _, [], _ => none
  | cooked, '\\' :: c :: cs, pos =>
      scanTemplate (cooked && isTemplateEscape (c :: cs)) cs
        (pos + 1 + c.utf8Size)
  | cooked, '$' :: '{' :: cs, pos =>
      some ⟨.hole, cooked, { rest := cs, pos := pos + 2 }⟩
  | cooked, c :: cs, pos =>
      if c = '\x60' then
        some
          ⟨.closed, cooked, { rest := cs, pos := pos + 1 }⟩
      else
        scanTemplate cooked cs (pos + c.utf8Size)

/- The body of a regular expression after its slash. -/
def scanRegexBody :
    Bool → Text → Nat → Option Place
  | _, [], _ => none
  | inClass, '\\' :: c :: cs, pos =>
      if Text.isLineEnd c then
        none
      else
        scanRegexBody inClass cs (pos + 1 + c.utf8Size)
  | inClass, c :: cs, pos =>
      if Text.isLineEnd c then
        none
      else if c = '/' && !inClass then
        some { rest := cs, pos := pos + 1 }
      else if c = '[' then
        scanRegexBody true cs (pos + 1)
      else if c = ']' then
        scanRegexBody false cs (pos + 1)
      else
        scanRegexBody inClass cs (pos + c.utf8Size)

/- A regular expression at a place, flags included. -/
def scanRegex
    (p : Place) : Option Place :=
  match scanRegexBody false (p.rest.drop 1) (p.pos + 1) with
  | none => none
  | some body =>
      match body.rest with
      | c :: _ =>
          if Text.isIdentStart c then
            some (body.after
              (body.rest.takeWhile Text.isIdentPart))
          else
            some body
      | [] => some body

/- The text of markup up to a brace or a tag. -/
def scanMarkupText
    (p : Place) : Place :=
  p.after (p.rest.takeWhile fun c => c ≠ '{' && c ≠ '<')

/- A quoted attribute value, which has no escapes. -/
def scanMarkupString
    (p : Place) : Option Place :=
  match p.rest with
  | quote :: cs =>
      let body := cs.takeWhile fun c => c ≠ quote
      let next := (p.skip 1).after body
      match next.rest with
      | _ :: _ => some (next.skip 1)
      | [] => none
  | [] => none

/- The rest of a name of markup after a word of it. -/
def scanMarkupTail
    (p : Place) : Text × Place :=
  match p.rest with
  | '-' :: _ =>
      let read := p.rest.takeWhile fun c =>
        Text.isIdentPart c || c == '-'
      (read, p.after read)
  | _ => ([], p)

------------------------------------------------------------
-- Punctuators
------------------------------------------------------------

/- The longest punctuator at the start of a text. -/
def scanPunct : Text → Option (Punct × Nat)
  | '{' :: _ => some (.lbrace, 1)
  | '}' :: _ => some (.rbrace, 1)
  | '(' :: _ => some (.lparen, 1)
  | ')' :: _ => some (.rparen, 1)
  | '[' :: _ => some (.lbracket, 1)
  | ']' :: _ => some (.rbracket, 1)
  | '.' :: '.' :: '.' :: _ => some (.ellipsis, 3)
  | '.' :: _ => some (.dot, 1)
  | ';' :: _ => some (.semi, 1)
  | ',' :: _ => some (.comma, 1)
  | ':' :: _ => some (.colon, 1)
  | '?' :: '?' :: '=' :: _ => some (.coalesceAssign, 3)
  | '?' :: '?' :: _ => some (.coalesce, 2)
  | '?' :: '.' :: c :: _ =>
      if c.isDigit then
        some (.question, 1)
      else
        some (.optionalDot, 2)
  | '?' :: '.' :: [] => some (.optionalDot, 2)
  | '?' :: _ => some (.question, 1)
  | '@' :: _ => some (.at, 1)
  | '#' :: _ => some (.hash, 1)
  | '\x60' :: _ => some (.backtick, 1)
  | '~' :: _ => some (.tilde, 1)
  | '=' :: '>' :: _ => some (.arrow, 2)
  | '=' :: '=' :: '=' :: _ => some (.eqq, 3)
  | '=' :: '=' :: _ => some (.eq, 2)
  | '=' :: _ => some (.assign, 1)
  | '!' :: '=' :: '=' :: _ => some (.neq, 3)
  | '!' :: '=' :: _ => some (.ne, 2)
  | '!' :: _ => some (.bang, 1)
  | '<' :: '<' :: '=' :: _ => some (.shlAssign, 3)
  | '<' :: '<' :: _ => some (.shl, 2)
  | '<' :: '=' :: _ => some (.le, 2)
  | '<' :: _ => some (.lt, 1)
  | '>' :: '>' :: '>' :: '=' :: _ => some (.ushrAssign, 4)
  | '>' :: '>' :: '>' :: _ => some (.ushr, 3)
  | '>' :: '>' :: '=' :: _ => some (.shrAssign, 3)
  | '>' :: '>' :: _ => some (.shr, 2)
  | '>' :: '=' :: _ => some (.ge, 2)
  | '>' :: _ => some (.gt, 1)
  | '+' :: '+' :: _ => some (.plusPlus, 2)
  | '+' :: '=' :: _ => some (.plusAssign, 2)
  | '+' :: _ => some (.plus, 1)
  | '-' :: '-' :: _ => some (.minusMinus, 2)
  | '-' :: '=' :: _ => some (.minusAssign, 2)
  | '-' :: _ => some (.minus, 1)
  | '*' :: '*' :: '=' :: _ => some (.powerAssign, 3)
  | '*' :: '*' :: _ => some (.power, 2)
  | '*' :: '=' :: _ => some (.starAssign, 2)
  | '*' :: _ => some (.star, 1)
  | '/' :: '=' :: _ => some (.slashAssign, 2)
  | '/' :: _ => some (.slash, 1)
  | '%' :: '=' :: _ => some (.percentAssign, 2)
  | '%' :: _ => some (.percent, 1)
  | '&' :: '&' :: '=' :: _ => some (.andAssign, 3)
  | '&' :: '&' :: _ => some (.andAnd, 2)
  | '&' :: '=' :: _ => some (.ampAssign, 2)
  | '&' :: _ => some (.amp, 1)
  | '|' :: '|' :: '=' :: _ => some (.orAssign, 3)
  | '|' :: '|' :: _ => some (.orOr, 2)
  | '|' :: '=' :: _ => some (.barAssign, 2)
  | '|' :: _ => some (.bar, 1)
  | '^' :: '=' :: _ => some (.caretAssign, 2)
  | '^' :: _ => some (.caret, 1)
  | _ => none

------------------------------------------------------------
-- Tokens
------------------------------------------------------------

/-
  The token of a word with escapes after its first
  character.  A reserved word must not be written so, but
  the first word of a script is only refused if it never
  is a name.
-/
def escapedToken
    (first : Bool)
    (written name : Text) : Token :=
  if isReserved name then
    if first && !isKeyword name && name != "enum".toList then
      .word name false
    else
      .invalid
  else if contextualWords.contains name then
    .word written true
  else
    .word name true

/-
  A word as a token.  One that starts with an escape is a
  plain name.
-/
def wordToken
    (first : Bool)
    (p : Place) : Token × Place :=
  match scanWord p with
  | some (name, false, next) => (.word name false, next)
  | some (name, true, next) =>
      if p.rest.head? == some '\\' then
        (.word name true, next)
      else
        let count := p.rest.length - next.rest.length
        (escapedToken first (p.rest.take count) name, next)
  | none => (.invalid, p.skip 1)

/- A name after a number sign, or the sign alone. -/
def hashToken
    (p : Place) : Token × Place :=
  match p.rest.drop 1 with
  | c :: _ =>
      if Text.isIdentStart c || c == '\\' then
        match scanWord (p.skip 1) with
        | some (_, _, next) => (.privateName, next)
        | none => (.invalid, p.skip 1)
      else
        (.punct .hash, p.skip 1)
  | [] => (.punct .hash, p.skip 1)

/-
  The token at a place that is not in a gap; it may be the
  first of the script.
-/
def scanToken
    (first : Bool)
    (p : Place) : Token × Place :=
  match p.rest with
  | [] => (.finish, p)
  | c :: cs =>
      if Text.isIdentStart c || c == '\\' then
        wordToken first p
      else if c.isDigit then
        scanNumber p
      else if c == '\'' || c == '"' then
        scanString c p
      else if c == '#' then
        hashToken p
      else if c == '.' &&
          (cs.head?.map Char.isDigit).getD false then
        scanFraction [] p
      else
        match scanPunct p.rest with
        | some (punct, width) => (.punct punct, p.skip width)
        | none => (.invalid, p.after [c])

end Script
end ComponentLoader
