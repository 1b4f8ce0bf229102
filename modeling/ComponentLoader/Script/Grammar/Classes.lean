import ComponentLoader.Script.Grammar.Functions

/-
  This file holds the rules for classes.

  Key definitions include:
    * `Script.Grammar.member`
    * `Script.Grammar.classRest`
-/

namespace ComponentLoader
namespace Script
namespace Grammar

open Script.Parser

------------------------------------------------------------
-- Keys Of Members
------------------------------------------------------------

/- The key of a member of a class. -/
def classKey
    (r : Rules)
    (sc : Scope) : Parser Key := do
  let lo ← position
  match ← token with
  | .privateName =>
      advance
      return ⟨← spanFrom lo, none, false⟩
  | _ => propertyKey r sc

/- Whether a key is that of the constructor. -/
def Key.isConstructor
    (key : Key) : Bool :=
  key.name == some "constructor".toList

/- A key that is the word read last. -/
def keyOfWord
    (w : String) : Key :=
  ⟨Span.nowhere, some w.toList, true⟩

/- Whether what follows a key makes it a method. -/
def isAtMethod
    (types : Bool) : Parser Bool := do
  return (← isAt .lparen) || (types && (← isAt .lt))

/-
  Whether what follows a key makes it a property: a type,
  a value or an end, which a line end may be or not.
-/
def isAtProperty
    (types lineEnds : Bool) : Parser Bool := do
  if types && (← isAtAny [.bang, .colon]) then
    return true
  if ← isAtAny [.assign, .rbrace, .semi] then
    return true
  return lineEnds && (← isAtEnd)

------------------------------------------------------------
-- Members
------------------------------------------------------------

/- The words read before a member. -/
structure Modifiers where
  access : Bool := false
  isStatic : Bool := false
  abstract : Bool := false
  readonly : Bool := false
  override : Bool := false

/-
  The rest of a property after its key.  Its semicolon may
  be missing.
-/
def propertyRest
    (r : Rules)
    (sc : Scope)
    (key : Key)
    (optional : Bool)
    (marked : List Namespace) : Parser Unit := do
  require (!key.isConstructor)
  let inner := sc.ofFunction false false
  if sc.types && !optional then
    let _ ← eat .bang
  annotation r inner
  if ← eat .assign then
    let _ ← r.assign inner
  let _ ← eatSemicolon
  noteAll marked

/- The rest of a constructor after its key. -/
def constructorRest
    (r : Rules)
    (sc : Scope) : Parser Unit := do
  let inner := sc.ofFunction false false
  optionalTypeParameters r inner
  constructorParams r inner
  annotation r inner
  functionBody r inner

/-
  A member whose key is the word read last, if what
  follows shows that it modifies nothing.
-/
def wordMember
    (r : Rules)
    (sc : Scope)
    (word : String)
    (lineEnds : Bool)
    (marked : List Namespace) : Parser Bool := do
  if ← isAtMethod sc.types then
    functionRest r sc false false marked
    return true
  else if (← isAtProperty sc.types lineEnds) ||
      (sc.types && (← isAt .question)) then
    let optional ← if sc.types then eat .question else pure false
    propertyRest r sc (keyOfWord word) optional marked
    return true
  else
    return false

/- A method after `async`. -/
def asyncMember
    (r : Rules)
    (sc : Scope)
    (marked : List Namespace) : Parser Unit := do
  if sc.types then
    let _ ← eatModifier ["override"]
  let generator ← eat .star
  let key ← classKey r sc
  require (!key.isConstructor)
  if sc.types then
    let _ ← eat .question
  functionRest r sc true generator marked

/- A member from its key on. -/
def keyedMember
    (r : Rules)
    (sc : Scope)
    (words : Modifiers)
    (marked : List Namespace) : Parser Unit := do
  let key ← classKey r sc
  let optional ← if sc.types then eat .question else pure false
  if ← isAtMethod sc.types then
    require (!words.readonly)
    if key.isConstructor then
      constructorRest r sc
    else
      functionRest r sc false false marked
    return ()
  let generatorNext := (← newline) && (← isAt .star)
  let accessor := (key.spells "get" || key.spells "set") &&
    !(← isAtProperty sc.types false) && !generatorNext
  if !accessor && (← isAtProperty sc.types true) then
    propertyRest r sc key optional marked
  else if key.spells "async" && !(← newline) then
    asyncMember r sc marked
  else
    require accessor
    let _ ← classKey r sc
    functionRest r sc false false marked

/- The words before a member that come in any order. -/
def freeModifiers
    (words : Modifiers) : Parser Modifiers :=
  iterate
    (fun words => do
      let there := (← peek).token
      if (← token).spells "static" &&
          there.isPunct .lbrace then
        return none
      else if ← eatModifier ["abstract"] then
        return some { words with abstract := true }
      else if ← eatModifier ["readonly"] then
        return some { words with readonly := true }
      else if ← eatModifier ["override"] then
        return some { words with override := true }
      else if ← eatModifier ["static"] then
        return some { words with isStatic := true }
      else
        return none)
    words

/- A member after the words that stand before it. -/
def modifiedMember
    (r : Rules)
    (sc : Scope)
    (words : Modifiers)
    (marked : List Namespace) : Parser Unit := do
  if words.isStatic && (← isAt .lbrace) then
    block r (sc.ofFunction false false)
  else if (← isAtWord "static") &&
      (← peek).token.isPunct .lbrace then
    advance
    block r (sc.ofFunction false false)
  else if sc.types && !words.abstract && !words.override &&
      !words.access && (← isAtIndex) then
    indexSignature r sc
  else if ← eat .star then
    let _ ← classKey r sc
    functionRest r sc false true marked
  else
    keyedMember r sc words marked

/- The words before a member where types are written. -/
def typedMember
    (r : Rules)
    (sc : Scope)
    (marked : List Namespace) : Parser Unit := do
  let first ← eatWord "declare"
  let access ← eatModifier
    ["public", "protected", "private", "in", "out"]
  let second ← if first then pure false else eatWord "declare"
  if first || second then
    if ← wordMember r sc "declare" true marked then
      return ()
  let isStatic ← eatWord "static"
  let accessor ← eatWord "accessor"
  if isStatic then
    if ← wordMember r sc "static" false marked then
      return ()
  if accessor then
    if ← wordMember r sc "accessor" true marked then
      return ()
  let words ← freeModifiers
    { access := access, isStatic := isStatic }
  if !accessor then
    let _ ← eatWord "accessor"
  modifiedMember r sc words marked

/- The words before a member where no types are written. -/
def plainMember
    (r : Rules)
    (sc : Scope)
    (marked : List Namespace) : Parser Unit := do
  let isStatic ← eatWord "static"
  if isStatic then
    if ← wordMember r sc "static" false marked then
      return ()
  modifiedMember r sc { isStatic := isStatic } marked

/-
  A member of a class.  The namespaces in its decorators
  come late, and with a constructor, a block or an index
  not at all.
-/
def member
    (r : Rules)
    (sc : Scope) : Parser Unit := do
  let (_, marked) ← isolate (decorators r sc)
  if sc.types then
    typedMember r sc marked
  else
    plainMember r sc marked

/- The members of a class in braces. -/
def classBody
    (r : Rules)
    (sc : Scope) : Parser Unit := do
  expect .lbrace
  repeatWhile do
    if ← eat .rbrace then
      return false
    if !(← eat .semi) then
      member r sc.ofMembers
    return true

------------------------------------------------------------
-- Classes
------------------------------------------------------------

/-
  The name of a class.  Where it may be left out, only a
  word that can refer to a thing is one.
-/
def className
    (sc : Scope)
    (required : Bool) : Parser (Option Text) := do
  let here ← token
  if required then
    require (!here.isWord "let")
    return some (← bindingName sc)
  if here.isReference || (sc.types && here.isWord "this") then
    return some (← bindingName sc)
  return none

/- What a class extends. -/
def superclass
    (r : Rules)
    (sc : Scope) : Parser Unit := do
  let _ ← r.operand sc
  if sc.types && (← isAt .lt) then
    typeArguments r sc

/- What a class extends, after `extends` if it is there. -/
def superclassHere
    (r : Rules)
    (sc : Scope) : Parser Bool := do
  if ← eatWord "extends" then
    superclass r sc
    if sc.types then
      if ← eat .comma then
        heritage r sc
    return true
  return false

/- The interfaces that a class implements. -/
def interfaces
    (r : Rules)
    (sc : Scope) : Parser Unit := do
  if sc.types then
    if ← eatWord "implements" then
      heritage r sc
    if ← eatWord "implements" then
      heritage r sc

/- What a class extends, after what it implements. -/
def lateSuperclass
    (r : Rules)
    (sc : Scope) : Parser Unit := do
  if sc.types then
    if ← eatWord "extends" then
      superclass r sc

/-
  A class after its word, with its name.  The namespaces
  in what it extends come after those in its body; if it
  extends two things, only the first counts.
-/
def classRest
    (r : Rules)
    (outer : Scope)
    (nameRequired : Bool) : Parser (Option Text) := do
  let sc := outer.bracketed
  let name ← className sc nameRequired
  optionalTypeParameters r sc
  let (extended, above) ← isolate (superclassHere r sc)
  let _ ← isolate do
    if ← eatWord "extends" then
      superclass r sc
  interfaces r sc
  let (_, late) ← isolate (lateSuperclass r sc)
  classBody r sc
  noteAll (if extended then above else late)
  return name

end Grammar
end Script
end ComponentLoader
