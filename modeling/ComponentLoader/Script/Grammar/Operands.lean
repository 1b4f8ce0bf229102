import ComponentLoader.Script.Grammar.Arrows
import ComponentLoader.Script.Grammar.Classes
import ComponentLoader.Script.Grammar.Objects

/-
  This file holds the rules for what stands between the
  operators of an expression.

  Key definitions include:
    * `Script.Grammar.primary`
    * `Script.Grammar.subscripts`
    * `Script.Grammar.construct`
    * `Script.Grammar.operand`
    * `Script.Grammar.decorator`
-/

namespace ComponentLoader
namespace Script
namespace Grammar

open Script.Parser

------------------------------------------------------------
-- Functions And Classes
------------------------------------------------------------

/- A function expression after `function`. -/
def functionExpr
    (r : Rules)
    (sc : Scope)
    (lo : Nat)
    (async : Bool) : Parser Expr := do
  let generator ← eat .star
  let here ← token
  if here.isReference || (sc.types && here.isWord "this") then
    advance
  functionWithBody r sc.ofPlainFunction async generator
  formFrom .other lo

/- A class expression, its decorators first. -/
def classExpr
    (r : Rules)
    (sc : Scope) : Parser Expr := do
  let lo ← position
  let _ ← decorators r sc
  expectWord "class"
  let _ ← classRest r sc false
  formFrom .other lo

------------------------------------------------------------
-- Things By Themselves
------------------------------------------------------------

/-
  What starts with a word.  A word with escapes is never
  a keyword.
-/
def wordOperand
    (r : Rules)
    (sc : Scope)
    (here : Token) : Parser Expr := do
  let c ← cursor
  let lo := c.lo
  if here.isWord "true" then
    advance
    return .bool (← spanFrom lo) true
  else if here.isWord "false" then
    advance
    return .bool (← spanFrom lo) false
  else if here.isOneOf ["this", "null"] then
    advance
    formFrom .other lo
  else if here.isWord "function" then
    advance
    functionExpr r sc lo false
  else if here.isWord "class" then
    classExpr r sc
  else if here.isWord "async" && !c.next.newline &&
      c.next.token.isWord "function" then
    advance
    advance
    functionExpr r sc lo true
  else if here.isWord "async" then
    asyncOperand r sc
  else
    nameOrArrow r sc

/- What stands in a hole of a template. -/
def templateHole
    (r : Rules)
    (sc : Scope) : Parser Unit := do
  let _ ← expression r sc.bracketed

/- Something that is an operand by itself. -/
def primary
    (r : Rules)
    (sc : Scope) : Parser Expr := do
  let c ← cursor
  match c.token with
  | .word _ _ => wordOperand r sc c.token
  | .string value =>
      advance
      return .str (← spanFrom c.lo) value
  | .number value =>
      advance
      return .num (← spanFrom c.lo) value
  | .bigint | .privateName =>
      advance
      formFrom .other c.lo
  | .punct .lparen => group r sc none
  | .punct .lbracket => array r sc
  | .punct .lbrace => object r sc
  | .punct .at => classExpr r sc
  | .punct .backtick =>
      template false (templateHole r sc)
      formFrom .other c.lo
  | .punct .slash | .punct .slashAssign =>
      match scanRegex c.here with
      | some next =>
          moveTo next
          formFrom .other c.lo
      | none => fail
  | _ => fail

------------------------------------------------------------
-- Links
------------------------------------------------------------

/- What may follow an operand besides names after dots. -/
structure Tail where
  /- Calls. -/
  calls : Bool
  /- Expressions in brackets. -/
  computed : Bool

/- The tail of an operand that anything may follow. -/
def Tail.full : Tail :=
  { calls := true, computed := true }

/- The tail of what `new` makes. -/
def Tail.ofConstruct : Tail :=
  { calls := false, computed := true }

/- The tail of the name of a decorator. -/
def Tail.ofDecorator : Tail :=
  { calls := true, computed := false }

/- An operand so far. -/
structure Chain where
  /- Its value. -/
  value : Expr
  /- Whether it may end early, at a question mark. -/
  optional : Bool
  /- Whether type arguments alone may follow it. -/
  generic : Bool

/- The operand so far without its parts. -/
def linkOf
    (lo : Nat)
    (optional generic : Bool) : Parser Chain := do
  return ⟨← formFrom .target lo, optional, generic⟩

/- A call of an operand that started at `lo`. -/
def callOf
    (r : Rules)
    (sc : Scope)
    (lo : Nat)
    (chain : Chain) : Parser Chain := do
  let args ← arguments r sc
  if chain.optional then
    linkOf lo true false
  else
    return ⟨.call (← spanFrom lo) chain.value args,
      false, false⟩

/- A template after an operand that started at `lo`. -/
def taggedOf
    (r : Rules)
    (sc : Scope)
    (lo : Nat) : Parser Chain := do
  template true (templateHole r sc)
  return ⟨← formFrom .other lo, false, false⟩

/- A name after a dot. -/
def dotName : Parser Unit := do
  match ← token with
  | .word _ _ => advance
  | .privateName => advance
  | _ => fail

/- An expression in brackets. -/
def computedName
    (r : Rules)
    (sc : Scope) : Parser Unit := do
  expect .lbracket
  let _ ← expression r sc.bracketed
  expect .rbracket

/- What follows a question mark and a dot. -/
def optionalLink
    (r : Rules)
    (sc : Scope)
    (tail : Tail)
    (lo : Nat) : Parser Chain := do
  if tail.computed && (← isAt .lbracket) then
    computedName r sc
    linkOf lo true true
  else if ← isAt .lparen then
    let _ ← arguments r sc
    linkOf lo true false
  else if sc.types && (← isAtAngle) then
    callTypeArguments r sc
    let _ ← arguments r sc
    linkOf lo true false
  else
    dotName
    linkOf lo true true

------------------------------------------------------------
-- Type Arguments
------------------------------------------------------------

/- The words that start an expression. -/
def expressionWords : List String :=
  ["await", "class", "delete", "false", "function",
    "import", "new", "null", "super", "this", "true",
    "typeof", "void", "yield"]

/- The punctuators that start an expression. -/
def expressionPuncts : List Punct :=
  [.lparen, .lbracket, .backtick, .plus, .minus, .tilde,
    .bang, .plusPlus, .minusMinus, .lt, .hash]

/- Whether a token starts an expression, braces apart. -/
def startsExpression
    (t : Token) : Bool :=
  t.isReference || t.isOneOf expressionWords ||
    match t with
    | .privateName => true
    | .number _ => true
    | .bigint => true
    | .string _ => true
    | .punct p => expressionPuncts.contains p
    | _ => false

/-
  Whether type arguments can stand alone in front of a
  token: nothing that would go on with them follows.
-/
def canEndTypeArguments
    (c : Cursor) : Bool :=
  !([Punct.lt, .gt, .plus, .minus, .lparen,
    .backtick].any fun p => c.token.isPunct p) &&
    (c.newline || c.token.isBinary ||
      !startsExpression c.token)

/-
  Type arguments and what they are for: a call, a template
  or the operand alone.
-/
def genericLink
    (r : Rules)
    (sc : Scope)
    (tail : Tail)
    (lo : Nat)
    (chain : Chain) : Parser Chain := do
  callTypeArguments r sc
  let c ← cursor
  if tail.calls && c.token.isPunct .lparen then
    callOf r sc lo chain
  else if c.token.isPunct .backtick then
    taggedOf r sc lo
  else
    require (c.token.isPunct .assign ||
      c.token.isOneOf ["as", "satisfies"] ||
      (chain.generic && canEndTypeArguments c))
    linkOf lo false false

------------------------------------------------------------
-- What Follows An Operand
------------------------------------------------------------

/- One thing after an operand, if there is one. -/
def plainSubscript
    (r : Rules)
    (sc : Scope)
    (tail : Tail)
    (lo : Nat)
    (chain : Chain) : Parser (Option Chain) := do
  match ← token with
  | .punct .optionalDot =>
      advance
      return some (← optionalLink r sc tail lo)
  | .punct .lbracket =>
      if !tail.computed then
        return none
      computedName r sc
      return some (← linkOf lo chain.optional true)
  | .punct .lparen =>
      if !tail.calls then
        return none
      return some (← callOf r sc lo chain)
  | .punct .dot =>
      advance
      dotName
      return some (← linkOf lo chain.optional true)
  | .punct .backtick =>
      return some (← taggedOf r sc lo)
  | _ => return none

/- The same with what only follows where types are. -/
def subscript
    (r : Rules)
    (sc : Scope)
    (tail : Tail)
    (lo : Nat)
    (chain : Chain) : Parser (Option Chain) := do
  if sc.types && (← isAt .bang) && !(← newline) then
    advance
    return some (← linkOf lo chain.optional false)
  else if sc.types && (← isAtAngle) then
    attempt (genericLink r sc tail lo chain)
  else
    plainSubscript r sc tail lo chain

/- All that follows an operand. -/
def subscripts
    (r : Rules)
    (sc : Scope)
    (tail : Tail)
    (lo : Nat)
    (value : Expr)
    (generic : Bool) : Parser Chain :=
  iterate (subscript r sc tail lo) ⟨value, false, generic⟩

------------------------------------------------------------
-- Operands
------------------------------------------------------------

/-
  A property of what is above an object or a class, after
  `super`.
-/
def superProperty
    (r : Rules)
    (sc : Scope)
    (lo : Nat) : Parser Expr := do
  let named ← eat .dot
  let here ← token
  if named then
    dotName
  else
    computedName r sc
  require (!named || here.isAnyWord)
  require (sc.types || sc.superOk)
  formFrom .target lo

/- What is above an object or a class, and its use. -/
def superOperand
    (r : Rules)
    (sc : Scope)
    (tail : Tail)
    (lo : Nat) : Parser Chain := do
  expectWord "super"
  if tail.calls && (← isAt .lparen) then
    let _ ← arguments r sc
    let called ← formFrom .other lo
    subscripts r sc tail lo called false
  else
    let value ← superProperty r sc lo
    subscripts r sc tail lo value true

/-
  `import` as an operand, and its use: what is known of
  the module, or another one that is loaded.
-/
def importOperand
    (r : Rules)
    (sc : Scope)
    (tail : Tail)
    (lo : Nat) : Parser Chain := do
  expectWord "import"
  let word ←
    if ← eat .dot then
      wordThat fun t =>
        ["defer", "meta", "source"].any fun w => t.spells w
    else
      pure []
  if word ≠ "meta".toList then
    require tail.calls
    importArguments r sc
  let value ← formFrom .other lo
  subscripts r sc tail lo value false

/- Type arguments of `new`, before its arguments. -/
def constructTypes
    (r : Rules)
    (sc : Scope) : Parser Unit := do
  callTypeArguments r sc
  require (← isAt .lparen)

/- An operand with what may follow it. -/
def operandWith
    (r : Rules)
    (sc : Scope)
    (tail : Tail) : Parser Chain := do
  let lo ← position
  let here ← token
  if here.isWord "new" then
    let (value, whole) ← r.construct sc
    if whole then
      subscripts r sc tail lo value false
    else
      return ⟨value, false, false⟩
  else if here.isWord "super" then
    superOperand r sc tail lo
  else if here.isWord "import" then
    importOperand r sc tail lo
  else
    let value ← primary r sc
    if value.isArrow then
      return ⟨value, false, false⟩
    subscripts r sc tail lo value true

/-
  `new` and what it makes; whether it has arguments.  What
  may end early makes nothing.
-/
def construct
    (r : Rules)
    (sc : Scope) : Parser (Expr × Bool) := do
  let lo ← position
  expectWord "new"
  if ← eat .dot then
    expectWord "target"
    return (← formFrom .other lo, true)
  let maker ← operandWith r sc .ofConstruct
  require (!maker.optional)
  if sc.types && (← isAtAngle) then
    let _ ← attempt (constructTypes r sc)
  let whole ← isAt .lparen
  if whole then
    let _ ← arguments r sc
  return (← formFrom .other lo, whole)

/- What stands between operators. -/
def operand
    (r : Rules)
    (sc : Scope) : Parser Expr := do
  let chain ← operandWith r sc .full
  return chain.value

------------------------------------------------------------
-- Decorators
------------------------------------------------------------

/- What a decorator names. -/
def decoratorName
    (r : Rules)
    (sc : Scope) : Parser Expr := do
  if ← eat .lparen then
    let value ← expression r sc
    expect .rparen
    return value
  let lo ← position
  let word ← wordThat fun t =>
    isBindable sc t && !t.isWord "yield"
  let name := .name (← spanFrom lo) word
  let chain ← subscripts r sc .ofDecorator lo name false
  return chain.value

/- A decorator, with the arguments that still follow. -/
def decorator
    (r : Rules)
    (sc : Scope) : Parser Decorator := do
  expect .at
  let named ← decoratorName r sc
  let generic := sc.types && (← isAtAngle)
  if generic then
    callTypeArguments r sc
  let value ←
    if generic || (← isAt .lparen) then do
      let args ← arguments r sc
      pure (.call (← spanFrom named.span.lo) named args)
    else
      pure named
  return { value := value, hi := (← cursor).last }

end Grammar
end Script
end ComponentLoader
