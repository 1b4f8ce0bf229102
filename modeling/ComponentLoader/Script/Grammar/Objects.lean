import ComponentLoader.Script.Grammar.Functions

/-
  This file holds the rules for object and array literals
  and for the arguments of calls.

  Key definitions include:
    * `Script.Grammar.object`
    * `Script.Grammar.array`
    * `Script.Grammar.arguments`
-/

namespace ComponentLoader
namespace Script
namespace Grammar

open Script.Parser

------------------------------------------------------------
-- Objects
------------------------------------------------------------

/- The rest of an entry that is a method. -/
def methodEntry
    (r : Rules)
    (sc : Scope)
    (lo : Nat)
    (name : Option Text)
    (async generator : Bool) : Parser Entry := do
  functionRest r sc.ofMembers async generator []
  return .other (← spanFrom lo) name .method

/-
  Whether an entry breaks off after its key.  With types
  this is let pass unless a value, a method or another
  part of the entry seems to follow.
-/
def breaksOff
    (key : Key) : Token → Bool
  | .word _ _ => false
  | .string _ => false
  | .number _ => false
  | .bigint => false
  | .punct p =>
      !([.lparen, .lbracket, .colon, .comma, .question,
        .assign, .star, .lt].contains p ||
        (p = .rbrace && key.isWord))
  | _ => true

/- The rest of an entry that starts with a word. -/
def wordEntry
    (r : Rules)
    (sc : Scope)
    (lo : Nat)
    (key : Key) : Parser Entry := do
  let _ ← eat .question
  if ← eat .assign then
    let _ ← r.assign sc.withIn
    return .other (← spanFrom lo) key.name .short
  else if ← isAtAny [.comma, .rbrace] then
    return .other key.span key.name .short
  else if key.spells "async" then
    let generator ← eat .star
    let name := (← propertyKey r sc).name
    methodEntry r sc lo name true generator
  else
    require (key.spells "get" || key.spells "set")
    let name := (← propertyKey r sc).name
    methodEntry r sc lo name false false

/- An entry that starts with its key or a word. -/
def keyedEntry
    (r : Rules)
    (sc : Scope)
    (lo : Nat) : Parser Entry := do
  let key ← propertyKey r sc
  if sc.types && breaksOff key (← token) then
    return .pair key.span key.name (← formFrom .other lo)
  else if ← eat .colon then
    let value ← r.assign sc.withIn
    let span := { lo := key.span.lo, hi := value.span.hi }
    return .pair span key.name value
  else if (← isAt .lparen) ||
      (sc.types && (← isAt .lt)) then
    methodEntry r sc lo key.name false false
  else
    require key.isWord
    wordEntry r sc lo key

/- An entry of an object literal. -/
def entry
    (r : Rules)
    (sc : Scope) : Parser Entry := do
  let lo ← position
  if ← eat .ellipsis then
    let _ ← r.assign sc.withIn
    return .other (← spanFrom lo) none .spread
  else if ← eat .star then
    let name := (← propertyKey r sc).name
    methodEntry r sc lo name false true
  else
    skipModifier sc
    keyedEntry r sc lo

/- An object literal. -/
def object
    (r : Rules)
    (sc : Scope) : Parser Expr := do
  let lo ← position
  expect .lbrace
  let entries ← commaList .rbrace (entry r sc.bracketed)
  return .object (← spanFrom lo) entries

------------------------------------------------------------
-- Arrays And Arguments
------------------------------------------------------------

/- An element of an array literal. -/
def element
    (r : Rules)
    (sc : Scope) : Parser (Option Element) := do
  let lo ← position
  if ← eat .rbracket then
    return none
  if ← eat .comma then
    return some .hole
  let spread ← eat .ellipsis
  let value ← r.assign sc
  if !(← isAt .rbracket) then
    expect .comma
  if spread then
    return some (.spread lo value)
  return some (.item value)

/- An array literal. -/
def array
    (r : Rules)
    (sc : Scope) : Parser Expr := do
  let lo ← position
  expect .lbracket
  let elements ← collect (element r sc.bracketed)
  return .array (← spanFrom lo) elements

/- An argument of a call. -/
def argument
    (r : Rules)
    (sc : Scope) : Parser Argument := do
  if ← eat .ellipsis then
    return .spread (← r.assign sc)
  return .item (← r.assign sc)

/- Arguments in parentheses. -/
def arguments
    (r : Rules)
    (sc : Scope) : Parser (List Argument) := do
  expect .lparen
  commaList .rparen (argument r sc.bracketed)

/-
  The arguments of `import`.  A comma comes last among
  them only with types.
-/
def importArguments
    (r : Rules)
    (sc : Scope) : Parser Unit := do
  expect .lparen
  let _ ← commaList .rparen do
    let _ ← argument r sc.bracketed
    if !sc.types && (← isAt .comma) then
      require (!(← peek).token.isPunct .rparen)

end Grammar
end Script
end ComponentLoader
