import ComponentLoader.Script.Grammar.Functions

/-
  This file holds the rules for markup elements.

  An element is read up to its last angle bracket and the
  bracket is left to the caller: only the caller knows
  whether text or tokens follow it.

  Key definitions include:
    * `Script.Grammar.markupName`
    * `Script.Grammar.markupElement`
-/

namespace ComponentLoader
namespace Script
namespace Grammar

open Script.Parser

------------------------------------------------------------
-- Names
------------------------------------------------------------

/- A name of markup without dots and colons. -/
def markupWord : Parser Text := do
  let c ← cursor
  match c.token with
  | .word w _ =>
      let (more, next) := scanMarkupTail c.there
      moveTo next
      return w ++ more
  | _ => fail

/- A name of markup, which may have a colon inside. -/
def markupPair : Parser (Text × Bool) := do
  let first ← markupWord
  if ← eat .colon then
    let second ← markupWord
    return (first ++ ':' :: second, true)
  return (first, false)

/- The name of an element, with its colon or its dots. -/
def markupName : Parser Text := do
  let (first, paired) ← markupPair
  if paired then
    return first
  let parts ← collect do
    if ← eat .dot then
      return some ('.' :: (← markupWord))
    return none
  return first ++ parts.flatten

------------------------------------------------------------
-- Attributes
------------------------------------------------------------

/- An expression in braces up to the closing one. -/
def markupHole
    (r : Rules)
    (sc : Scope) : Parser Unit := do
  expect .lbrace
  if !(← isAt .rbrace) then
    let _ ← eat .ellipsis
    let _ ← expression r sc.bracketed
  require (← isAt .rbrace)

/- Attributes taken from an object, in braces. -/
def spreadAttribute
    (r : Rules)
    (sc : Scope) : Parser Unit := do
  expect .lbrace
  expect .ellipsis
  let _ ← r.assign sc.bracketed
  expect .rbrace

/- The value of an attribute, which is not empty. -/
def attributeValue
    (r : Rules)
    (sc : Scope) : Parser Unit := do
  if ← isAt .lbrace then
    require (!(← peek).token.isPunct .rbrace)
    markupHole r sc
    advance
  else if ← isAtChar '<' then
    r.element sc
    expectChar '>'
  else
    require ((← isAtChar '"') || (← isAtChar '\''))
    match scanMarkupString (← cursor).here with
    | some next => moveTo next
    | none => fail

/- An attribute of an element. -/
def markupAttribute
    (r : Rules)
    (sc : Scope) : Parser Bool := do
  if (← isAtChar '/') || (← isAtChar '>') then
    return false
  if ← isAt .lbrace then
    spreadAttribute r sc
  else
    let _ ← markupPair
    if ← eat .assign then
      attributeValue r sc
  return true

------------------------------------------------------------
-- Elements
------------------------------------------------------------

/-
  A closing tag up to its bracket, after its slash.  Only
  a whole tag is compared with the opening one.
-/
def closingTag
    (name : Text) : Parser Unit := do
  let closed ←
    if ← isAtChar '>' then pure [] else markupName
  require (← isAtChar '>')
  if closed ≠ name then
    expectChar '>'
    fail

/- The contents of an element and its closing tag. -/
def markupContents
    (r : Rules)
    (sc : Scope)
    (name : Text) : Nat → Place → Parser Unit
  | 0, _ => fail
  | fuel + 1, p => do
      let next := scanMarkupText p
      match next.rest with
      | '{' :: _ =>
          moveTo next
          markupHole r sc
          markupContents r sc name fuel (← cursor).there
      | '<' :: '/' :: _ =>
          moveTo (next.skip 2)
          closingTag name
      | '<' :: '!' :: _ =>
          moveTo (next.skip 1)
          fail
      | '<' :: _ =>
          moveTo next
          r.element sc
          markupContents r sc name fuel
            ((← cursor).here.skip 1)
      | _ =>
          moveTo next
          fail

/- A markup element up to its last angle bracket. -/
def markupElement
    (r : Rules)
    (sc : Scope) : Parser Unit := do
  expectChar '<'
  let name ←
    if ← isAtChar '>' then pure [] else markupName
  if !name.isEmpty then
    if sc.types && (← isAtAngle) then
      let _ ← attempt (typeArguments r sc)
    repeatWhile (markupAttribute r sc)
    if ← eatChar '/' then
      require (← isAtChar '>')
      return ()
  let c ← cursor
  require (c.here.rest.head? == some '>')
  markupContents r sc name c.fuel (c.here.skip 1)

end Grammar
end Script
end ComponentLoader
