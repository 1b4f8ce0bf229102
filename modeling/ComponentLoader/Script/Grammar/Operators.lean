import ComponentLoader.Script.Grammar.Functions

/-
  This file holds the rules for operators between
  operands.

  Every operator gives an expression that is kept as its
  span alone, so operators need no precedence: operands
  and operators alternate.

  Key definitions include:
    * `Script.Grammar.binaryRest`
    * `Script.Grammar.conditionalRest`
    * `Script.Grammar.assignRest`
-/

namespace ComponentLoader
namespace Script
namespace Grammar

open Script.Parser

------------------------------------------------------------
-- Operands And Operators
------------------------------------------------------------

/- Operands joined so far. -/
structure Joined where
  /- All of them. -/
  value : Expr
  /- Whether there is more than one. -/
  several : Bool
  /- Whether the last one has an operator before it. -/
  prefixed : Bool

/- An operand by itself. -/
def Joined.ofExpr
    (value : Expr) : Joined :=
  ⟨value, false, value.isPrefixed⟩

/- A type after an operand, whose word has been read. -/
def rightType
    (r : Rules)
    (sc : Scope)
    (left : Joined)
    (constOk : Bool) : Parser Joined := do
  let fixed ← if constOk then eatWord "const" else pure false
  if !fixed then
    r.type sc
  let form : Form :=
    if left.several then .operation
    else if fixed then .other
    else .target
  return ⟨← formFrom form left.value.span.lo,
    left.several, false⟩

/-
  An operand after an operator.  What has an operator
  before it is not raised to a power.
-/
def rightOperand
    (r : Rules)
    (sc : Scope)
    (left : Joined) : Parser Joined := do
  let power ← isAt .power
  advance
  require (!(power && left.prefixed))
  let right ← r.unary sc
  let span :=
    { lo := left.value.span.lo, hi := right.span.hi }
  return ⟨.form span .operation, true, right.isPrefixed⟩

/- Whether a token joins two operands in a scope. -/
def joins
    (sc : Scope)
    (t : Token) : Bool :=
  t.isBinary || t.isWord "instanceof" ||
    (sc.inOk && t.isWord "in")

/- An operator and what follows it, if there is one. -/
def binaryStep
    (r : Rules)
    (sc : Scope)
    (left : Joined) : Parser (Option Joined) := do
  let here ← token
  if sc.types && here.isWord "as" && !(← newline) then
    advance
    return some (← rightType r sc left true)
  else if sc.types && here.isWord "satisfies" &&
      !(← newline) then
    advance
    return some (← rightType r sc left false)
  else if joins sc here then
    return some (← rightOperand r sc left)
  else
    return none

/- The operators after an operand and their operands. -/
def binaryRest
    (r : Rules)
    (sc : Scope)
    (first : Expr) : Parser Expr := do
  let all ← iterate (binaryStep r sc) (Joined.ofExpr first)
  return all.value

------------------------------------------------------------
-- Conditions And Assignments
------------------------------------------------------------

/- The outcomes of a condition, after its question mark. -/
def outcomes
    (r : Rules)
    (sc : Scope)
    (lo : Nat) : Parser Expr := do
  let _ ← r.assign sc.consequent
  expect .colon
  let last ← r.assign sc.alternative
  return .form { lo := lo, hi := last.span.hi } .operation

/- The outcomes of a condition, if it has any. -/
def conditionalRest
    (r : Rules)
    (sc : Scope)
    (lo : Nat)
    (test : Expr) : Parser Expr := do
  if ← eat .question then
    outcomes r sc lo
  else
    return test

/-
  Whether an expression can be assigned to.  An equals
  sign also takes patterns.
-/
def isAssignable
    (operator : Token) : Expr → Bool
  | .object span entries =>
      operator.isPunct .assign &&
        (Expr.object span entries).isPattern
  | .array span elements =>
      operator.isPunct .assign &&
        (Expr.array span elements).isPattern
  | e => e.isTarget

/- What is assigned to an expression, if anything is. -/
def assignRest
    (r : Rules)
    (sc : Scope)
    (lo : Nat)
    (target : Expr) : Parser Expr := do
  let here ← token
  if here.isAssign then
    require (isAssignable here target)
    advance
    let _ ← r.assign sc
    formFrom .other lo
  else
    return target

end Grammar
end Script
end ComponentLoader
