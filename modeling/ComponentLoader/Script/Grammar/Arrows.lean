import ComponentLoader.Script.Grammar.Operators

/-
  This file holds the rules for parentheses and for arrow
  functions.

  What stands in parentheses is read once, and only what
  follows them tells whether it is an expression or the
  parameters of an arrow function.

  Key definitions include:
    * `Script.Grammar.groupItems`
    * `Script.Grammar.group`
    * `Script.Grammar.nameOrArrow`
    * `Script.Grammar.asyncOperand`
-/

namespace ComponentLoader
namespace Script
namespace Grammar

open Script.Parser

------------------------------------------------------------
-- Bodies
------------------------------------------------------------

/- The body of an arrow function; whether it is a block. -/
def arrowBody
    (r : Rules)
    (sc : Scope)
    (async : Bool) : Parser Bool := do
  if ← isAt .lbrace then
    block r (sc.ofFunction async false)
    return true
  else
    let _ ← r.assign
      { sc with
        async := async, generator := false, inParams := false }
    return false

/- The body of an arrow function, which starts at `lo`. -/
def arrowRest
    (r : Rules)
    (sc : Scope)
    (lo : Nat)
    (async : Bool) : Parser Expr := do
  let _ ← arrowBody r sc async
  formFrom .arrow lo

------------------------------------------------------------
-- Items In Parentheses
------------------------------------------------------------

/- An item in parentheses. -/
inductive GroupItem where
  /- An expression. -/
  | value (e : Expr)
  /- A spread. -/
  | spread (e : Expr)
  /- What can only be a parameter; whether it is a name. -/
  | param (isName : Bool)

namespace GroupItem

/- Whether an item can only be a parameter. -/
def isParam : GroupItem → Bool
  | param _ => true
  | _ => false

/- Whether an item can be a parameter. -/
def canBind : GroupItem → Bool
  | value e => e.isPattern
  | spread e => e.isPattern
  | param _ => true

/- Whether an item is a name or the spread of one. -/
def isName : GroupItem → Bool
  | value e => e.isName
  | spread e => e.isName
  | param isName => isName

/- An item as an argument of a call. -/
def argument? : GroupItem → Option Argument
  | value e => some (.item e)
  | spread e => some (.spread e)
  | param _ => none

/- An item as an expression by itself. -/
def value? : GroupItem → Option Expr
  | value e => some e
  | _ => none

end GroupItem

/-
  What an item starts with: an expression, and whether it
  is spread.  With types, a question mark after a name is
  left for what follows.
-/
def groupValue
    (r : Rules)
    (sc : Scope)
    (lo : Nat) : Parser (Bool × Expr) := do
  let here ← token
  let there := (← peek).token
  let named := here.isReference ||
    (here.isPunct .ellipsis && there.isReference)
  let spread ← eat .ellipsis
  if sc.types && named then
    let value ← r.binary { sc with arrowAt := lo }
    if spread then
      return (true, value)
    return (false, ← assignRest r sc lo value)
  else
    return (spread, ← r.assign sc)

/- Whether a question mark marks a parameter here. -/
def isAtMark : Parser Bool := do
  if ← isAt .question then
    let there := (← peek).token
    return [Punct.comma, .assign, .rparen, .colon].any
      fun p => there.isPunct p
  return false

/- Whether a type can be given to an item. -/
def isTypable : GroupItem → Bool
  | .value (.name _ _) => true
  | .value (.object span entries) =>
      (Expr.object span entries).isPattern
  | .value (.array span elements) =>
      (Expr.array span elements).isPattern
  | .value _ => false
  | .spread e => e.isPattern
  | .param _ => false

/- The type and the value of an item, after its mark. -/
def paramRest
    (r : Rules)
    (sc : Scope)
    (item : GroupItem) : Parser GroupItem := do
  require (isTypable item)
  annotation r sc
  if ← eat .assign then
    let _ ← r.assign sc
    return .param false
  return .param item.isName

/- An item in parentheses. -/
def groupItem
    (r : Rules)
    (sc : Scope)
    (lo : Nat) : Parser GroupItem := do
  skipModifier sc
  let (spread, value) ← groupValue r sc lo
  let item : GroupItem :=
    if spread then .spread value else .value value
  if !sc.types then
    return item
  if ← isAtMark then
    advance
    require value.isName
    paramRest r sc item
  else if ← isAt .colon then
    paramRest r sc item
  else if spread then
    return item
  else
    return .value (← conditionalRest r sc lo value)

/-
  An arrow after an item whose line has ended, if the
  first item is a name; the arrow function is one more
  item.
-/
def lateArrow
    (r : Rules)
    (sc : Scope)
    (lo : Nat)
    (items : List GroupItem) : Parser (List GroupItem) := do
  if ← eat .arrow then
    match items.getLast? with
    | some first =>
        if first.isName && items.all GroupItem.canBind then
          return .value (← arrowRest r sc lo false) :: items
        else
          require (!first.isName)
          return items
    | none => return items
  return items

/- One more item in parentheses, before those read. -/
def groupStep
    (r : Rules)
    (sc : Scope)
    (before : List GroupItem) :
    Parser (Option (List GroupItem)) := do
  if ← eat .rparen then
    return none
  let lo ← position
  let item ← groupItem r sc lo
  let items ← lateArrow r sc lo (item :: before)
  if !(← isAt .rparen) then
    expect .comma
  return some items

/- Items in parentheses. -/
def groupItems
    (r : Rules)
    (sc : Scope) : Parser (List GroupItem) := do
  expect .lparen
  let items ← iterate (groupStep r sc.bracketed) []
  return items.reverse

------------------------------------------------------------
-- Parentheses
------------------------------------------------------------

/-
  The rest of an arrow function in an outcome of a
  condition, whose result has a type.  If the colon of the
  condition is to come, it has to follow.
-/
def outcomeArrow
    (r : Rules)
    (sc : Scope)
    (lo : Nat)
    (async : Bool)
    (items : List GroupItem) : Parser Expr := do
  returnAnnotation r sc
  expect .arrow
  require (items.all GroupItem.canBind)
  let arrow ← arrowRest r sc lo async
  require (!sc.colonAwaited || (← isAt .colon))
  return arrow

/- The type of a result in front of an arrow. -/
def arrowResult
    (r : Rules)
    (sc : Scope) : Parser Unit := do
  returnAnnotation r sc
  require (← isAt .arrow)

/-
  An arrow function from its arrow on.  Operators that
  follow a block belong to it.
-/
def groupArrow
    (r : Rules)
    (sc : Scope)
    (lo : Nat)
    (async : Bool)
    (items : List GroupItem) : Parser Expr := do
  require (!(← newline))
  require (lo = sc.arrowAt)
  expect .arrow
  require (items.all GroupItem.canBind)
  let isBlock ← arrowBody r sc async
  let arrow ← formFrom .arrow lo
  if isBlock && (← token).isBinary then
    binaryRest r sc arrow
  else
    return arrow

/- Items that turn out to be one expression. -/
def parenthesized
    (lo : Nat)
    (items : List GroupItem) : Parser Expr := do
  match items.mapM GroupItem.value? with
  | none => fail
  | some [] => fail
  | some [inner] => return .paren (← spanFrom lo) inner
  | some (first :: rest) =>
      let last := (rest.getLastD first).span.hi
      let all := { lo := first.span.lo, hi := last }
      return .paren (← spanFrom lo) (.form all .other)

/- Items that turn out to be arguments of `async`. -/
def asyncCall
    (word : Span)
    (items : List GroupItem) : Parser Expr := do
  match items.mapM GroupItem.argument? with
  | none => fail
  | some args =>
      return .call (← spanFrom word.lo)
        (.name word "async".toList) args

/-
  Parentheses, which may follow `async`, and the arrow
  function that they start.
-/
def group
    (r : Rules)
    (sc : Scope)
    (async : Option Span) : Parser Expr := do
  let lo := (async.map Span.lo).getD (← position)
  let items ← groupItems r sc
  if sc.types && sc.inCondition && (← isAt .colon) then
    match ← attempt
      (outcomeArrow r sc lo async.isSome items) with
    | some arrow => return arrow
    | none => pure ()
  let typed ←
    if sc.types && !sc.colonAwaited && (← isAt .colon) then
      attempt (arrowResult r sc)
    else
      pure none
  if typed.isSome || (← isAt .arrow) ||
      items.any GroupItem.isParam then
    groupArrow r sc lo async.isSome items
  else
    match async with
    | some word => asyncCall word items
    | none => parenthesized lo items

------------------------------------------------------------
-- Names
------------------------------------------------------------

/- An arrow function after `async`, with one parameter. -/
def asyncArrow
    (r : Rules)
    (sc : Scope)
    (lo : Nat) : Parser Expr := do
  let word ← bindingName sc
  if sc.types && word = "as".toList &&
      !(← isAt .arrow) then
    r.type sc
    formFrom .target lo
  else
    expect .arrow
    arrowRest r sc lo true

/- Whether `of` ends the head of a loop here. -/
def isAtLoopOf
    (sc : Scope) : Parser Bool := do
  return sc.inLoopHead && (← isAtWord "of") &&
    !(← peek).token.isPunct .arrow

/- A name, or the arrow function that it starts. -/
def nameOrArrow
    (r : Rules)
    (sc : Scope) : Parser Expr := do
  let lo ← position
  let word ← wordThat fun t =>
    t.isReference || t.isWord "let"
  let span ← spanFrom lo
  let first := lo = sc.arrowAt && !(← newline)
  if first && word = "async".toList &&
      (← token).isReference then
    if ← isAtLoopOf sc then
      return .name span word
    asyncArrow r sc lo
  else if first && (← isAt .arrow) then
    advance
    arrowRest r sc lo false
  else
    return .name span word

/- An arrow function with types after `async`. -/
def genericAsyncArrow
    (r : Rules)
    (sc : Scope)
    (lo : Nat) : Parser Expr := do
  advance
  let inner := sc.ofFunction true false
  typeParameters r inner
  let _ ← params r inner
  returnAnnotation r inner
  expect .arrow
  arrowRest r sc lo true

/-
  What starts with `async`, if that is not just a name: an
  arrow function or a call.
-/
def asyncOperand
    (r : Rules)
    (sc : Scope) : Parser Expr := do
  let lo ← position
  let there ← peek
  if lo = sc.arrowAt && sc.types &&
      there.token.isPunct .lt then
    match ← attempt (genericAsyncArrow r sc lo) with
    | some arrow => return arrow
    | none => pure ()
  if lo = sc.arrowAt && there.token.isPunct .lparen &&
      !there.newline then
    advance
    group r sc (some (← spanFrom lo))
  else
    nameOrArrow r sc

end Grammar
end Script
end ComponentLoader
