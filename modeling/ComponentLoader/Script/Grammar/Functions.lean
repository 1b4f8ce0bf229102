import ComponentLoader.Script.Grammar.Types

/-
  This file holds the rules for blocks and for what comes
  after the name of a function.

  Key definitions include:
    * `Script.Grammar.expression`
    * `Script.Grammar.block`
    * `Script.Grammar.functionRest`
-/

namespace ComponentLoader
namespace Script
namespace Grammar

open Script.Parser

------------------------------------------------------------
-- Expressions With Commas
------------------------------------------------------------

/- The span from a position, with what is known of it. -/
def formFrom
    (form : Form)
    (lo : Nat) : Parser Expr := do
  return .form (← spanFrom lo) form

/- One or more expressions with commas between them. -/
def expression
    (r : Rules)
    (sc : Scope) : Parser Expr := do
  let first ← r.assign sc
  if ← isAt .comma then
    repeatWhile do
      if ← eat .comma then
        let _ ← r.assign sc
        return true
      return false
    formFrom .other first.span.lo
  else
    return first

------------------------------------------------------------
-- Blocks
------------------------------------------------------------

/-
  Statements up to a closing brace, which is read.  At the
  end of the script the brace may be missing.
-/
def statements
    (r : Rules)
    (sc : Scope) : Parser Unit :=
  repeatWhile do
    if ← eat .rbrace then
      return false
    if (← token) == .finish then
      return false
    let _ ← r.statement sc true
    return true

/- Statements in braces. -/
def block
    (r : Rules)
    (sc : Scope) : Parser Unit := do
  expect .lbrace
  statements r sc

------------------------------------------------------------
-- Functions
------------------------------------------------------------

/-
  The body of a function.  One that is only declared has
  none; this needs type annotations.
-/
def functionBody
    (r : Rules)
    (sc : Scope) : Parser Unit := do
  let missing : Parser Bool := do
    if sc.types && !(← isAt .lbrace) then
      eatSemicolon
    else
      return false
  if !(← missing) then
    block r sc

/- Parameters and result of a function. -/
def functionHead
    (r : Rules)
    (sc : Scope) : Parser Unit := do
  optionalTypeParameters r sc
  let _ ← params r sc
  if sc.types then
    returnAnnotation r sc

/-
  Parameters, result and body of a function.  The
  namespaces in its decorators come after those in its
  parameters.
-/
def functionRest
    (r : Rules)
    (sc : Scope)
    (async generator : Bool)
    (marked : List Namespace) : Parser Unit := do
  let inner := sc.ofFunction async generator
  functionHead r inner
  noteAll marked
  functionBody r inner

/- The same of a function that must have a body. -/
def functionWithBody
    (r : Rules)
    (sc : Scope)
    (async generator : Bool) : Parser Unit := do
  let inner := sc.ofFunction async generator
  functionHead r inner
  block r inner

end Grammar
end Script
end ComponentLoader
