import ComponentLoader.Script.Grammar.Declarations

/-
  This file holds the rules for statements.

  Key definitions include:
    * `Script.Grammar.forStatement`
    * `Script.Grammar.switchStatement`
    * `Script.Grammar.tryStatement`
    * `Script.Grammar.statementWith`
    * `Script.Grammar.statement`
-/

namespace ComponentLoader
namespace Script
namespace Grammar

open Script.Parser

------------------------------------------------------------
-- Parts Of Statements
------------------------------------------------------------

/- An expression in parentheses that guards something. -/
def guarded
    (r : Rules)
    (sc : Scope) : Parser Unit := do
  expect .lparen
  let _ ← expression r sc
  expect .rparen

/- A statement that belongs to another one. -/
def substatement
    (r : Rules)
    (sc : Scope) : Parser Unit := do
  let _ ← r.statement sc false

------------------------------------------------------------
-- Loops
------------------------------------------------------------

/- What a loop runs over. -/
inductive Course where
  /- Anything, as long as a condition holds. -/
  | counted
  /- The keys of something. -/
  | keys
  /- The values of something. -/
  | values
  deriving DecidableEq

/-
  The rest of a loop's head after its first semicolon; the
  second one may be missing.
-/
def countedHead
    (r : Rules)
    (sc : Scope) : Parser Course := do
  if !(← eat .semi) then
    let _ ← expression r sc
    anySemicolon
  if !(← isAt .rparen) then
    let _ ← expression r sc
  return .counted

/- Whether a token names what a loop runs over. -/
def isCourseWord
    (t : Token) : Bool :=
  t.isOneOf ["in", "of"]

/- The rest of a loop's head from such a word on. -/
def eachHead
    (r : Rules)
    (sc : Scope) : Parser Course := do
  if ← eatWord "of" then
    let _ ← r.assign sc
    return .values
  else
    expectWord "in"
    let _ ← expression r sc
    return .keys

/- The rest of a loop's head after what it binds. -/
def boundHead
    (r : Rules)
    (sc : Scope) : Parser Course := do
  if isCourseWord (← token) then
    eachHead r sc
  else
    expect .semi
    countedHead r sc

/- The rest of a loop's head that binds nothing. -/
def unboundHead
    (r : Rules)
    (sc : Scope) : Parser Unit := do
  let _ ← eachHead r sc
  expect .rparen

/-
  A loop's head that declares variables.  With types, the
  variables may have been left out.
-/
def variableHead
    (r : Rules)
    (sc : Scope) : Parser Course := do
  let binder := Binder.ofToken (← token)
  advance
  let unbound ←
    if sc.types && isCourseWord (← token) then
      wouldParse (unboundHead r sc)
    else
      pure false
  if !unbound then
    let inner := { sc with inOk := binder != .wide }
    variableList r inner binder true
  boundHead r sc

/-
  Whether an expression at the start of a loop's head is
  `using`, or `await` before it.
-/
def isUsingWord
    (start : Cursor)
    (value : Expr) : Bool :=
  value.isNamed "using" ||
    (start.token.isWord "await" &&
      start.next.token.spells "using" &&
      value.span.hi = start.next.there.pos)

/- A loop's head that starts with an expression. -/
def expressionHead
    (r : Rules)
    (sc : Scope) : Parser Course := do
  let start ← cursor
  let value ← expression r { sc with inOk := false }
  let c ← cursor
  if sc.types && isUsingWord start value &&
      !c.token.isWord "of" && isCourseWord c.next.token then
    let _ ← bindingName sc
    eachHead r sc
  else
    require (value.isPattern || !isCourseWord c.token)
    boundHead r sc

/- The head of a loop in parentheses. -/
def forHead
    (r : Rules)
    (sc : Scope) : Parser Course := do
  if startsVariables (← cursor) then
    variableHead r sc
  else if ← eat .semi then
    countedHead r sc
  else
    expressionHead r sc

/-
  A loop after `for`.  Only values can be waited for while
  the loop runs over them.
-/
def forStatement
    (r : Rules)
    (sc : Scope) : Parser Unit := do
  let waits ← eatWord "await"
  expect .lparen
  let course ← forHead r { sc with inLoopHead := true }
  expect .rparen
  substatement r sc
  require (!waits || course = .values)

/-
  A loop after `do`.  The namespaces in its condition come
  before those in its body.
-/
def doStatement
    (r : Rules)
    (sc : Scope) : Parser Unit := do
  let (_, body) ← isolate (substatement r sc)
  expectWord "while"
  guarded r sc
  anySemicolon
  noteAll body

------------------------------------------------------------
-- Choices
------------------------------------------------------------

/-
  A condition and what it guards; whether its parentheses
  are closed.  If not, it guards nothing.
-/
def ifClause
    (r : Rules)
    (sc : Scope) : Parser Bool := do
  expect .lparen
  let _ ← expression r sc
  if ← eat .rparen then
    substatement r sc
    return true
  return false

/- What happens otherwise; whether more may follow. -/
def elseClause
    (r : Rules)
    (sc : Scope) : Parser Bool := do
  if !(← eatWord "else") then
    return false
  if ← eatWord "if" then
    let _ ← ifClause r sc
    return true
  substatement r sc
  return false

/- A choice after `if`. -/
def ifStatement
    (r : Rules)
    (sc : Scope) : Parser Unit := do
  if ← ifClause r sc then
    repeatWhile (elseClause r sc)

/- The statements of a case. -/
def caseBody
    (r : Rules)
    (sc : Scope) : Parser Unit :=
  repeatWhile do
    if (← isAt .rbrace) ||
        (← token).isOneOf ["case", "default"] then
      return false
    let _ ← r.statement sc true
    return true

/- A case; whether there is one for all else by now. -/
def switchCase
    (r : Rules)
    (sc : Scope)
    (seen : Bool) : Parser (Option Bool) := do
  if ← eat .rbrace then
    return none
  let plain ← eatWord "case"
  if plain then
    let _ ← expression r sc
  else
    expectWord "default"
    require (!seen)
  expect .colon
  caseBody r sc
  return some (seen || !plain)

/- A choice after `switch`. -/
def switchStatement
    (r : Rules)
    (sc : Scope) : Parser Unit := do
  guarded r sc
  expect .lbrace
  let _ ← iterate (switchCase r sc) false

/- What handles an error, if anything does. -/
def catchClause
    (r : Rules)
    (sc : Scope) : Parser Unit := do
  if ← eatWord "catch" then
    if ← eat .lparen then
      let _ ← r.pattern sc
      annotation r sc
      expect .rparen
    block r sc

/- What is done in the end, if anything is. -/
def finallyClause
    (r : Rules)
    (sc : Scope) : Parser Unit := do
  if ← eatWord "finally" then
    block r sc

/- A block after `try` and what handles it. -/
def tryStatement
    (r : Rules)
    (sc : Scope) : Parser Unit := do
  block r sc
  catchClause r sc
  finallyClause r sc

/-
  What handles an error where nothing has been tried.  It
  counts as an expression and need not be well formed.
-/
def strayHandler
    (r : Rules)
    (sc : Scope) : Parser Shape := do
  let c ← cursor
  skim (catchClause r sc)
  skim (finallyClause r sc)
  let span := { lo := c.lo, hi := c.there.pos }
  return .expression (.form span .other)

------------------------------------------------------------
-- Jumps
------------------------------------------------------------

/- A jump after its word, with its label. -/
def jump
    (sc : Scope) : Parser Unit := do
  if !(← eatSemicolon) then
    let _ ← bindingName sc
    semicolon

/- What is handed back after `return`. -/
def returnStatement
    (r : Rules)
    (sc : Scope) : Parser Unit := do
  if !(← isAtEnd) then
    let _ ← expression r sc
  semicolon

/- What is thrown, which stands on the same line. -/
def throwStatement
    (r : Rules)
    (sc : Scope) : Parser Unit := do
  require (!(← newline))
  let _ ← expression r sc
  semicolon

------------------------------------------------------------
-- Statements
------------------------------------------------------------

/- What follows a word that starts a statement. -/
def wordStatement
    (r : Rules)
    (sc : Scope) : Token → Option (Parser Unit)
  | .word w false =>
      if w = "break".toList then some (jump sc)
      else if w = "continue".toList then some (jump sc)
      else if w = "debugger".toList then some semicolon
      else if w = "do".toList then some (doStatement r sc)
      else if w = "for".toList then some (forStatement r sc)
      else if w = "if".toList then some (ifStatement r sc)
      else if w = "return".toList then
        some (returnStatement r sc)
      else if w = "switch".toList then
        some (switchStatement r sc)
      else if w = "throw".toList then
        some (throwStatement r sc)
      else if w = "try".toList then some (tryStatement r sc)
      else if w = "while".toList || w = "with".toList then
        some do
          guarded r sc
          substatement r sc
      else none
  | .punct .lbrace => some (statements r sc)
  | .punct .semi => some (pure ())
  | _ => none

/-
  The end of a statement that is an expression.  Instead
  of it an operator may go on with the expression.
-/
def expressionEnd
    (r : Rules)
    (sc : Scope)
    (value : Expr) : Parser Shape := do
  if ← eatSemicolon then
    return .expression value
  require (← token).isBinary
  return .expression (← binaryRest r sc value)

/-
  A statement that starts with an expression: the
  expression alone, or what a name turns out to start.
-/
def simpleStatement
    (r : Rules)
    (sc : Scope)
    (before : Marks) : Parser Shape := do
  let value ← expression r sc
  match value with
  | .name span name =>
      if ← eat .colon then
        substatement r sc
        return .other
      let named ←
        if sc.types then
          namedDeclaration r sc span.lo before name
        else
          pure none
      match named with
      | some shape => return shape
      | none => expressionEnd r sc value
  | _ => expressionEnd r sc value

/-
  `await` before `using`: variables, or an expression that
  need not end here.
-/
def awaitUsing
    (r : Rules)
    (sc : Scope) : Parser Shape := do
  let lo ← position
  if startsUsing (← peek) then
    advance
    usingDeclaration r sc
    return .other
  else
    let awaited ← awaitOperand r sc lo
    let value ← binaryRest r sc awaited
    anySemicolon
    return .expression value

/- A statement with the decorators before it. -/
def statementWith
    (r : Rules)
    (outer : Scope)
    (declOk : Bool)
    (before : Marks) : Parser Shape := do
  let sc := outer.bracketed
  let c ← cursor
  if c.token.isOneOf ["catch", "finally"] then
    strayHandler r sc
  else if declOk && c.token.isWord "await" &&
      c.next.token.isWord "using" then
    awaitUsing r sc
  else
    match wordStatement r sc c.token with
    | some rest =>
        advance
        rest
        return .other
    | none =>
        match ← declaration r sc declOk before with
        | some shape => return shape
        | none => simpleStatement r sc before

/- `import` as the start of an expression. -/
def importStatement
    (r : Rules)
    (sc : Scope) : Parser Shape := do
  let value ← expression r sc
  anySemicolon
  return .expression value

/- Whether an expression starts with `import` here. -/
def startsImportExpr
    (c : Cursor) : Bool :=
  c.token.isWord "import" &&
    (c.next.token.isPunct .lparen ||
      c.next.token.isPunct .dot)

/-
  A statement, which may be a declaration or not.  Modules
  are not imported and nothing is exported here.
-/
def statement
    (r : Rules)
    (sc : Scope)
    (declOk : Bool) : Parser Shape := do
  let before ← marks r sc
  let c ← cursor
  if startsImportExpr c then
    importStatement r sc
  else
    require (!c.token.isOneOf ["export", "import"])
    statementWith r sc declOk before

end Grammar
end Script
end ComponentLoader
