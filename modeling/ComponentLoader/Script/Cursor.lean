import ComponentLoader.Script.Lexer
import ComponentLoader.Script.Tree

/-
  This file defines the cursor that walks over a script
  and the parsers that move it.

  The cursor looks at one token and knows the text from
  there on, so that a parser can read it in another way.
  It also gathers the namespaces that have been passed.
  A parser that fails says where the cursor was, so that
  another can go on from there.

  Key definitions include:
    * `Script.SyntaxError`
    * `Script.Cursor`
    * `Script.Cursor.next`
    * `Script.Parser`
    * `Script.Parser.eat`
    * `Script.Parser.expect`
    * `Script.Parser.attempt`
    * `Script.Parser.recover`
    * `Script.Parser.collect`
    * `Script.Parser.isolate`
-/

namespace ComponentLoader
namespace Script

------------------------------------------------------------
-- Cursors
------------------------------------------------------------

/- A script is malformed at a position. -/
structure SyntaxError where
  position : Nat
  deriving DecidableEq, Inhabited

/- A token of a script with what surrounds it. -/
structure Cursor where
  /- The text from the start of the token. -/
  here : Place
  /- The position of the token. -/
  lo : Nat
  /- The token. -/
  token : Token
  /- The text after the token. -/
  there : Place
  /- Whether a line ends in the gap before the token. -/
  newline : Bool
  /- Where the token before it ended. -/
  last : Nat
  /- A bound on the tokens of the script. -/
  fuel : Nat
  /- The namespaces passed, the last first. -/
  found : List Namespace

namespace Cursor

/-
  The cursor at the first token after a place.  A comment
  of markup before the token counts as its start.
-/
def atPlace
    (first : Bool)
    (fuel : Nat)
    (found : List Namespace)
    (p : Place) : Cursor :=
  let gap := skipGap .outside p.rest p.pos first none
  let scanned := scanToken first gap.next
  { here := gap.next
    lo := gap.mark.getD gap.next.pos
    token := scanned.1
    there := scanned.2
    newline := gap.newline
    last := p.pos
    fuel := fuel
    found := found }

/- The cursor at the first token of a script. -/
def start
    (fuel : Nat)
    (p : Place) : Cursor :=
  atPlace true fuel [] p

/- The cursor at the first token after a place. -/
def moveTo
    (c : Cursor)
    (p : Place) : Cursor :=
  atPlace false c.fuel c.found p

/- The cursor at the next token. -/
def next
    (c : Cursor) : Cursor :=
  c.moveTo c.there

/- The span from a position to the last token read. -/
def spanFrom
    (c : Cursor)
    (lo : Nat) : Span :=
  { lo := lo, hi := c.last }

/- The cursor where something fails. -/
def failed
    (c : Cursor) : Cursor :=
  if c.token = .invalid then c.next else c

/-
  Whether a statement may end here: at a semicolon or a
  closing brace, after a line end, or at the end.
-/
def isAtEnd
    (c : Cursor) : Bool :=
  c.newline || c.token == .finish ||
    c.token.isPunct .semi || c.token.isPunct .rbrace

end Cursor

------------------------------------------------------------
-- Parsers
------------------------------------------------------------

/- Something that reads from a cursor and moves it. -/
abbrev Parser :=
  StateT Cursor (Except Cursor)

namespace Parser

variable {α β : Type}

/-
  The script is malformed here.  What is no token at all
  is passed over.
-/
def fail : Parser α :=
  fun c => .error c.failed

/- Go on only if a condition holds. -/
def require
    (condition : Bool) : Parser Unit :=
  if condition then pure () else fail

/- The cursor. -/
def cursor : Parser Cursor :=
  fun c => .ok (c, c)

/- The token. -/
def token : Parser Token :=
  fun c => .ok (c.token, c)

/- The cursor at the token after this one. -/
def peek : Parser Cursor :=
  fun c => .ok (c.next, c)

/- The position of the token. -/
def position : Parser Nat :=
  fun c => .ok (c.lo, c)

/- Whether a line ends before the token. -/
def newline : Parser Bool :=
  fun c => .ok (c.newline, c)

/- The span from a position to the last token read. -/
def spanFrom
    (lo : Nat) : Parser Span :=
  fun c => .ok (c.spanFrom lo, c)

/- Move to the next token. -/
def advance : Parser Unit :=
  fun c => .ok ((), c.next)

/- Move to the first token after a place. -/
def moveTo
    (p : Place) : Parser Unit :=
  fun c => .ok ((), c.moveTo p)

------------------------------------------------------------
-- Tokens
------------------------------------------------------------

/- Whether the token is a punctuator. -/
def isAt
    (p : Punct) : Parser Bool :=
  fun c => .ok (c.token.isPunct p, c)

/- Whether the token is one of several punctuators. -/
def isAtAny
    (ps : List Punct) : Parser Bool :=
  fun c => .ok (ps.any fun p => c.token.isPunct p, c)

/- Read a punctuator if it is there. -/
def eat
    (p : Punct) : Parser Bool :=
  fun c =>
    if c.token.isPunct p then
      .ok (true, c.next)
    else
      .ok (false, c)

/- Read one of several punctuators if it is there. -/
def eatAny
    (ps : List Punct) : Parser Bool :=
  fun c =>
    if ps.any fun p => c.token.isPunct p then
      .ok (true, c.next)
    else
      .ok (false, c)

/- Read a punctuator. -/
def expect
    (p : Punct) : Parser Unit := do
  require (← eat p)

/- Whether the token is a word without escapes. -/
def isAtWord
    (w : String) : Parser Bool :=
  fun c => .ok (c.token.isWord w, c)

/- Read a word if it is there. -/
def eatWord
    (w : String) : Parser Bool :=
  fun c =>
    if c.token.isWord w then
      .ok (true, c.next)
    else
      .ok (false, c)

/- Read one of several words if it is there. -/
def eatWordOf
    (ws : List String) : Parser Bool :=
  fun c =>
    if c.token.isOneOf ws then
      .ok (true, c.next)
    else
      .ok (false, c)

/- Read a word. -/
def expectWord
    (w : String) : Parser Unit := do
  require (← eatWord w)

/- Read a word that passes a test. -/
def wordThat
    (test : Token → Bool) : Parser Text :=
  fun c =>
    match c.token with
    | .word w _ =>
        if test c.token then
          .ok (w, c.next)
        else
          .error c
    | _ => .error c.failed

/- Read a word that can refer to a thing. -/
def reference : Parser Text :=
  wordThat Token.isReference

/- Read any word. -/
def anyWord : Parser Text :=
  wordThat Token.isAnyWord

/- Read a string literal. -/
def stringLiteral : Parser (Option Text) :=
  fun c =>
    match c.token with
    | .string value => .ok (value, c.next)
    | _ => .error c.failed

/- Whether the token starts with a character. -/
def isAtChar
    (ch : Char) : Parser Bool :=
  fun c => .ok (c.here.rest.head? == some ch, c)

/- Read one character that starts the token. -/
def eatChar
    (ch : Char) : Parser Bool :=
  fun c =>
    match c.here.rest with
    | first :: _ =>
        if first = ch then
          .ok (true, c.moveTo (c.here.skip 1))
        else
          .ok (false, c)
    | [] => .ok (false, c)

/- Read one character that must start the token. -/
def expectChar
    (ch : Char) : Parser Unit := do
  require (← eatChar ch)

/- Whether a statement may end here. -/
def isAtEnd : Parser Bool :=
  fun c => .ok (c.isAtEnd, c)

/- Read a semicolon, which may be left out at an end. -/
def eatSemicolon : Parser Bool := do
  if ← eat .semi then
    return true
  isAtEnd

/- Read a semicolon, which may be left out at an end. -/
def semicolon : Parser Unit := do
  require (← eatSemicolon)

/- Read a semicolon if it is there. -/
def anySemicolon : Parser Unit := do
  let _ ← eat .semi

------------------------------------------------------------
-- Choice
------------------------------------------------------------

/- Run a parser; if it fails, stay where it started. -/
def attempt
    (p : Parser α) : Parser (Option α) :=
  fun c =>
    match p c with
    | .ok (a, c') => .ok (some a, c')
    | .error _ => .ok (none, c)

/- Whether a parser would succeed. -/
def wouldParse
    (p : Parser α) : Parser Bool :=
  fun c =>
    match p c with
    | .ok _ => .ok (true, c)
    | .error _ => .ok (false, c)

/-
  Run a parser; if it fails, go on where it failed, as if
  nothing had been passed.
-/
def recover
    (p : Parser α) : Parser (Option α) :=
  fun c =>
    match p c with
    | .ok (a, c') => .ok (some a, c')
    | .error c' => .ok (none, { c' with found := c.found })

/-
  Run a parser; if it fails in front of something that
  passes a test, put something in its place.
-/
def recoverWhere
    (test : Cursor → Bool)
    (instead : Cursor → α)
    (p : Parser α) : Parser α :=
  fun c =>
    match p c with
    | .ok r => .ok r
    | .error c' =>
        if test c' then
          .ok (instead c', { c' with found := c.found })
        else
          .error c'

/- Run a parser for how far it goes and nothing else. -/
def skim
    (p : Parser α) : Parser Unit :=
  fun c =>
    match p c with
    | .ok (_, c') => .ok ((), { c' with found := c.found })
    | .error c' => .ok ((), { c' with found := c.found })

------------------------------------------------------------
-- Repetition
------------------------------------------------------------

/- Run a step on a state as long as it yields one. -/
def iterateUpTo
    (step : α → Parser (Option α)) :
    Nat → α → Parser α
  | 0, _ => fail
  | fuel + 1, a => do
      match ← step a with
      | some next => iterateUpTo step fuel next
      | none => return a

/- Run a step on a state as long as it yields one. -/
def iterate
    (step : α → Parser (Option α))
    (a : α) : Parser α := do
  iterateUpTo step (← cursor).fuel a

/- Run a step as long as it yields something. -/
def collect
    (step : Parser (Option α)) : Parser (List α) := do
  let gathered ← iterate
    (fun before => do
      match ← step with
      | some a => return some (a :: before)
      | none => return none)
    []
  return gathered.reverse

/- Run a step as long as it says so. -/
def repeatWhile
    (step : Parser Bool) : Parser Unit :=
  iterate
    (fun _ => do
      if ← step then
        return some ()
      return none)
    ()

/-
  Items with commas between them up to a closing
  punctuator, which is read; a comma may come last.
-/
def commaList
    (close : Punct)
    (item : Parser α) : Parser (List α) :=
  collect do
    if ← eat close then
      return none
    let a ← item
    if !(← isAt close) then
      expect .comma
    return some a

------------------------------------------------------------
-- Namespaces Passed
------------------------------------------------------------

/- Note a namespace. -/
def note
    (ns : Namespace) : Parser Unit :=
  fun c => .ok ((), { c with found := ns :: c.found })

/- Note namespaces in order. -/
def noteAll
    (nss : List Namespace) : Parser Unit :=
  fun c =>
    .ok ((), { c with found := nss.reverse ++ c.found })

/- Run a parser and hand out the namespaces it passes. -/
def isolate
    (p : Parser α) : Parser (α × List Namespace) :=
  fun c =>
    match p { c with found := [] } with
    | .error e => .error { e with found := c.found }
    | .ok (a, c') =>
        .ok ((a, c'.found.reverse),
          { c' with found := c.found })

end Parser
end Script
end ComponentLoader
