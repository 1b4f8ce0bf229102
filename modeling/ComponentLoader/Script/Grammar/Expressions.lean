import ComponentLoader.Script.Grammar.Operands

/-
  This file holds the rules for expressions without
  commas, from an operand with its operators up.

  Key definitions include:
    * `Script.Grammar.unary`
    * `Script.Grammar.binary`
    * `Script.Grammar.conditional`
    * `Script.Grammar.yieldExpr`
    * `Script.Grammar.assign`
-/

namespace ComponentLoader
namespace Script
namespace Grammar

open Script.Parser

------------------------------------------------------------
-- Operators Before And After An Operand
------------------------------------------------------------

/- A type in angle brackets and the operand after it. -/
def assertion
    (r : Rules)
    (sc : Scope)
    (lo : Nat) : Parser Expr := do
  expectChar '<'
  let fixed ← eatWord "const"
  if !fixed then
    r.type sc
  expectChar '>'
  let _ ← r.unary sc
  formFrom (if fixed then .other else .target) lo

/- A markup element. -/
def markupOperand
    (r : Rules)
    (sc : Scope)
    (lo : Nat) : Parser Expr := do
  r.element sc
  expectChar '>'
  formFrom .other lo

/-
  An operand with an operator before it, after that one.
  If nothing can be read as the operand, the operator
  stands alone.
-/
def prefixedOperand
    (r : Rules)
    (sc : Scope)
    (lo : Nat) : Parser Expr := do
  let before := (← position) - 1
  let right ← recover (r.unary sc)
  let hi := (right.map fun e => e.span.hi).getD before
  return .form { lo := lo, hi := hi } .prefixed

/- Whether `await` has no operand here. -/
def endsAwait
    (c : Cursor) : Bool :=
  c.isAtEnd || [.rparen, .rbracket, .comma].any
    fun p => c.token.isPunct p

/-
  `await` and what it waits for.  Outside of asynchronous
  functions it is a name if no operand can follow it.
-/
def awaitOperand
    (r : Rules)
    (sc : Scope)
    (lo : Nat) : Parser Expr := do
  expectWord "await"
  require (!(← isAt .star))
  if !sc.async && endsAwait (← cursor) then
    return .name (← spanFrom lo) "await".toList
  let _ ← r.unary sc
  formFrom .awaited lo

/- An operand and what counts it up or down after it. -/
def countedOperand
    (r : Rules)
    (sc : Scope)
    (lo : Nat) : Parser Expr := do
  let value ← operand r sc
  if value.isArrow then
    return value
  if (← token).isUpdate && !(← newline) then
    advance
    formFrom .operation lo
  else
    return value

/- The words that are operators before an operand. -/
def prefixWords : List String :=
  ["delete", "typeof", "void"]

/- Whether a token is an operator before an operand. -/
def isPrefixToken
    (t : Token) : Bool :=
  t.isOneOf prefixWords ||
    match t with
    | .punct p => p.isPrefixOp
    | _ => false

/- An operand with the operators before and after it. -/
def unary
    (r : Rules)
    (sc : Scope) : Parser Expr := do
  let lo ← position
  let here ← token
  if here.isPunct .lt then
    if sc.markup then
      markupOperand r sc lo
    else
      assertion r sc lo
  else if here.isUpdate then
    advance
    let _ ← r.unary sc
    formFrom .operation lo
  else if isPrefixToken here then
    advance
    prefixedOperand r sc lo
  else if here.isWord "await" then
    awaitOperand r sc lo
  else
    countedOperand r sc lo

------------------------------------------------------------
-- Operands With Operators Between Them
------------------------------------------------------------

/-
  The first operand.  In front of an operator it may be
  malformed.
-/
def firstOperand
    (r : Rules)
    (sc : Scope) : Parser Expr :=
  recoverWhere
    (fun c => joins sc c.token)
    (fun c => .form { lo := c.lo, hi := c.lo } .other)
    (unary r sc)

/- Operands joined by operators. -/
def binary
    (r : Rules)
    (sc : Scope) : Parser Expr := do
  let first ← firstOperand r sc
  if first.isArrow then
    return first
  binaryRest r sc first

/- A condition with its two outcomes, or less. -/
def conditional
    (r : Rules)
    (sc : Scope) : Parser Expr := do
  let lo ← position
  let test ← binary r sc
  if test.isArrow then
    return test
  conditionalRest r sc lo test

------------------------------------------------------------
-- Expressions Without Commas
------------------------------------------------------------

/- Whether something is handed out by `yield` here. -/
def startsYielded
    (c : Cursor) : Bool :=
  !c.isAtEnd && (startsExpression c.token ||
    [.star, .slash, .slashAssign, .lbrace].any
      fun p => c.token.isPunct p)

/- `yield` and what it hands out. -/
def yieldExpr
    (r : Rules)
    (sc : Scope) : Parser Expr := do
  let lo ← position
  expectWord "yield"
  require (!sc.inParams)
  if startsYielded (← cursor) then
    let _ ← eat .star
    let _ ← r.assign sc
  formFrom .other lo

/- Whether an arrow function can start with a token. -/
def startsArrow
    (t : Token) : Bool :=
  t.isReference || t.isPunct .lparen || t.isWord "yield"

/- An expression without commas or parameters for types. -/
def plainAssign
    (r : Rules)
    (outer : Scope) : Parser Expr := do
  let lo ← position
  let here ← token
  let sc := { outer with
    arrowAt := if startsArrow here then lo else 0 }
  if sc.generator && here.isWord "yield" then
    yieldExpr r sc
  else
    let target ← conditional r sc
    if target.isArrow || target.isOperation then
      return target
    assignRest r sc lo target

/- An arrow function after parameters for types. -/
def genericArrow
    (r : Rules)
    (sc : Scope) : Parser Expr := do
  let lo ← position
  typeParameters r sc
  let arrow ← plainAssign r { sc with colonAwaited := false }
  require arrow.isArrow
  formFrom .arrow lo

/-
  An expression without commas.  After an angle bracket
  and a word, parameters for types are tried first.
-/
def assign
    (r : Rules)
    (sc : Scope) : Parser Expr := do
  let c ← cursor
  if sc.types && c.token.isPunct .lt &&
      c.next.token.isAnyWord then
    match ← attempt (genericArrow r sc) with
    | some arrow => return arrow
    | none => pure ()
  plainAssign r sc

end Grammar
end Script
end ComponentLoader
