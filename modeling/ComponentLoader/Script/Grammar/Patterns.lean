import ComponentLoader.Script.Grammar.Rules

/-
  This file holds the rules for keys, binding patterns,
  parameters and template literals.

  Key definitions include:
    * `Script.Grammar.template`
    * `Script.Grammar.propertyKey`
    * `Script.Grammar.pattern`
    * `Script.Grammar.params`
-/

namespace ComponentLoader
namespace Script
namespace Grammar

open Script.Parser

------------------------------------------------------------
-- Templates
------------------------------------------------------------

/- The rest of a template from a place inside it. -/
def templateFrom
    (tagged : Bool)
    (hole : Parser Unit) : Nat → Place → Parser Unit
  | 0, _ => fail
  | fuel + 1, p =>
      match scanTemplate true p.rest p.pos with
      | none => fail
      | some stretch => do
          require (tagged || stretch.cooked)
          moveTo stretch.next
          if stretch.last = .hole then
            hole
            let c ← cursor
            require (c.token.isPunct .rbrace)
            templateFrom tagged hole fuel c.there

/-
  A template literal; `hole` reads what is in braces.  The
  escapes of one without a tag have to be well formed.
-/
def template
    (tagged : Bool)
    (hole : Parser Unit) : Parser Unit := do
  let c ← cursor
  require (c.token.isPunct .backtick)
  templateFrom tagged hole c.fuel c.there

------------------------------------------------------------
-- Keys
------------------------------------------------------------

/- The key of a property. -/
structure Key where
  /- Where it stands. -/
  span : Span
  /- Its name if it is fixed. -/
  name : Option Text
  /- Whether it is a word. -/
  isWord : Bool

/- Whether a key is the given word. -/
def Key.spells
    (key : Key)
    (w : String) : Bool :=
  key.isWord && key.name == some w.toList

/- An expression in brackets; with types, several. -/
def computedKey
    (r : Rules)
    (sc : Scope) : Parser Unit := do
  expect .lbracket
  let _ ← r.assign sc.withIn
  if sc.types then
    repeatWhile do
      if ← eat .comma then
        let _ ← r.assign sc.withIn
        return true
      return false
  expect .rbracket

/- The key of a property. -/
def propertyKey
    (r : Rules)
    (sc : Scope) : Parser Key := do
  let lo ← position
  match ← token with
  | .word w _ =>
      advance
      return ⟨← spanFrom lo, some w, true⟩
  | .string value =>
      advance
      return ⟨← spanFrom lo, value, false⟩
  | .number _ | .bigint =>
      advance
      return ⟨← spanFrom lo, none, false⟩
  | .punct .lbracket =>
      computedKey r sc
      return ⟨← spanFrom lo, none, false⟩
  | _ => fail

------------------------------------------------------------
-- Words Before Other Things
------------------------------------------------------------

/- Whether a token can follow a word that modifies it. -/
def isModifiable
    (c : Cursor) : Bool :=
  !c.newline &&
    match c.token with
    | .word _ _ => true
    | .string _ => true
    | .number _ => true
    | .privateName => true
    | .punct p =>
        [.lbracket, .lbrace, .star, .ellipsis,
          .hash].contains p
    | _ => false

/- Read one of several words before what it modifies. -/
def eatModifier
    (words : List String) : Parser Bool := do
  let here ← token
  if words.any fun w => here.spells w then
    if isModifiable (← peek) then
      advance
      return true
  return false

/- The words that are passed over before a name. -/
def nameModifiers : List String :=
  ["public", "protected", "private", "readonly"]

/- Whether a token can start a binding. -/
def startsBinding : Token → Bool
  | .word _ _ => true
  | .punct .lbrace => true
  | .punct .lbracket => true
  | _ => false

/- Pass over one word before a name, with types. -/
def skipModifier
    (sc : Scope) : Parser Unit := do
  let here ← token
  if sc.types && here.isOneOf nameModifiers then
    let there ← peek
    if startsBinding there.token && !there.newline then
      advance

------------------------------------------------------------
-- Patterns
------------------------------------------------------------

/- What a binding is. -/
inductive Bound where
  /- A name. -/
  | name
  /- A pattern in brackets or braces, or a rest. -/
  | group
  /- Something with a value to use when there is none. -/
  | given
  deriving DecidableEq

/- Whether a token can be bound in a scope. -/
def isBindable
    (sc : Scope)
    (t : Token) : Bool :=
  t.isBinding || (sc.types && t.isWord "this") ||
    (sc.ambient && t.isWord "await")

/- The name of a thing that is bound. -/
def bindingName
    (sc : Scope) : Parser Text :=
  wordThat (isBindable sc)

/- A binding with the value it has when there is none. -/
def bindingElement
    (r : Rules)
    (sc : Scope) : Parser Bound := do
  let isName ← r.pattern sc
  if ← eat .assign then
    let _ ← r.assign sc.withIn
    return .given
  return if isName then .name else .group

/- An element of an array pattern. -/
def elementPattern
    (r : Rules)
    (sc : Scope) : Parser Bool := do
  if ← eat .rbracket then
    return false
  if ← eat .comma then
    return true
  if ← eat .ellipsis then
    let _ ← r.pattern sc
  else
    let _ ← bindingElement r sc
  if !(← isAt .rbracket) then
    expect .comma
  return true

/- A property of an object pattern. -/
def propertyPattern
    (r : Rules)
    (sc : Scope) : Parser Unit := do
  if ← eat .ellipsis then
    let _ ← r.pattern sc
  else
    let key ← propertyKey r sc
    if ← eat .colon then
      let _ ← bindingElement r sc
    else
      require key.isWord
      if ← eat .assign then
        let _ ← r.assign sc.withIn

/- A question mark after a pattern without code. -/
def ambientMark
    (sc : Scope) : Parser Unit := do
  if sc.ambient then
    let _ ← eat .question

/- What a declaration binds; whether it is a name. -/
def pattern
    (r : Rules)
    (sc : Scope) : Parser Bool := do
  let inner := sc.bracketed
  if ← eat .lbracket then
    repeatWhile (elementPattern r inner)
    ambientMark sc
    return false
  if ← eat .lbrace then
    let _ ← commaList .rbrace (propertyPattern r inner)
    ambientMark sc
    return false
  let _ ← bindingName sc
  return true

------------------------------------------------------------
-- Parameters
------------------------------------------------------------

/- A type after a colon, if there is one. -/
def annotation
    (r : Rules)
    (sc : Scope) : Parser Unit := do
  if sc.types then
    if ← eat .colon then
      r.type sc

/- Decorators in a row. -/
def decorators
    (r : Rules)
    (sc : Scope) : Parser (List Decorator) :=
  collect do
    if ← isAt .at then
      return some (← r.decorator sc)
    return none

/- A parameter that is no rest, after its decorators. -/
def plainParam
    (r : Rules)
    (sc : Scope) : Parser Bound := do
  skipModifier sc
  let bound ← bindingElement r sc
  if sc.types then
    if ← eat .question then
      require (bound != .given || sc.ambient)
    annotation r sc
  if ← eat .assign then
    let _ ← r.assign sc.withIn
    return .given
  return bound

/- A parameter. -/
def param
    (r : Rules)
    (sc : Scope) : Parser Bound := do
  let _ ← decorators r sc
  if ← eat .ellipsis then
    let _ ← r.pattern sc
    if ← eat .assign then
      let _ ← r.assign sc.withIn
    annotation r sc
    if sc.types then
      let _ ← eat .question
    return .group
  plainParam r sc

/- Parameters in parentheses. -/
def params
    (r : Rules)
    (sc : Scope) : Parser (List Bound) := do
  expect .lparen
  commaList .rparen (param r sc.ofParams)

/- Parameters of a type, which have no values. -/
def typeParams
    (r : Rules)
    (sc : Scope) : Parser Unit := do
  let bounds ← params r sc
  require (bounds.all fun b => b != .given)

/-
  A parameter of a constructor.  With a modifier it makes
  a property, which needs a name.
-/
def constructorParam
    (r : Rules)
    (sc : Scope) : Parser Unit := do
  let _ ← decorators r sc
  if ← eat .ellipsis then
    let _ ← r.pattern sc
    annotation r sc
  else if sc.types then
    let access ← eatModifier
      ["public", "protected", "private", "in", "out"]
    let override ← eatModifier ["override"]
    let readonly ← eatModifier ["readonly"]
    let bound ← plainParam r sc
    require (bound != .group ||
      !(access || override || readonly))
  else
    let _ ← plainParam r sc

/- The parameters of a constructor in parentheses. -/
def constructorParams
    (r : Rules)
    (sc : Scope) : Parser Unit := do
  expect .lparen
  let _ ← commaList .rparen (constructorParam r sc.ofParams)

end Grammar
end Script
end ComponentLoader
