import ComponentLoader.Script.Grammar.Statements

/-
  This file holds the rules for the items of modules and
  namespaces: imports, exports and statements.

  Key definitions include:
    * `Script.Grammar.importItem`
    * `Script.Grammar.exportItem`
    * `Script.Grammar.item`
    * `Script.Grammar.items`
-/

namespace ComponentLoader
namespace Script
namespace Grammar

open Script.Parser

------------------------------------------------------------
-- Names In Lists
------------------------------------------------------------

/- A name that another module uses: a word or a string. -/
def exportedName : Parser Unit := do
  match ← token with
  | .word _ _ | .string _ => advance
  | _ => fail

/-
  The names after `type` and `as` in a list, which may be
  names or have meanings of their own.  `bound` reads the
  name that something gets.
-/
def typeAsNames
    (bound : Parser Text) : Parser Unit := do
  if (← token).isAnyWord then
    let second ← bound
    if second = "as".toList && (← token).isAnyWord then
      let _ ← bound

/- Names in braces, each read by `name`. -/
def namesInBraces
    (name : Parser Unit) : Parser Unit := do
  expect .lbrace
  let _ ← commaList .rbrace name

/- What is imported under its own name or another one. -/
def importedAs
    (sc : Scope)
    (name : Text) : Parser Unit := do
  if ← eatWord "as" then
    let _ ← bindingName sc
  else
    require (!isReserved name)

/- A name in a list of imports. -/
def importSpecifier
    (sc : Scope) : Parser Unit := do
  if (← token).isString then
    advance
    expectWord "as"
    let _ ← bindingName sc
  else
    let first ← anyWord
    if sc.types && first = "type".toList &&
        (← token).isAnyWord then
      let second ← anyWord
      if second = "as".toList then
        typeAsNames (bindingName sc)
      else
        importedAs sc second
    else
      importedAs sc first

/- What is exported under its own name or another one. -/
def exportedAs : Parser Unit := do
  if ← eatWord "as" then
    exportedName

/- A name in a list of exports. -/
def exportSpecifier
    (sc : Scope) : Parser Unit := do
  let typed := sc.types && (← token).spells "type"
  exportedName
  if typed && (← token).isAnyWord then
    let second ← anyWord
    if second = "as".toList then
      typeAsNames anyWord
    else
      exportedAs
  else
    exportedAs

------------------------------------------------------------
-- Sources
------------------------------------------------------------

/- A module by its name, with its attributes. -/
def moduleName
    (r : Rules)
    (sc : Scope) : Parser Unit := do
  let _ ← stringLiteral
  if sc.types && !(← newline) then
    if ← eatWordOf ["assert", "with"] then
      let _ ← object r sc

/- Where something comes from. -/
def fromClause
    (r : Rules)
    (sc : Scope) : Parser Unit := do
  expectWord "from"
  moduleName r sc
  semicolon

------------------------------------------------------------
-- Imports
------------------------------------------------------------

/- What a name stands for after an equals sign. -/
def importTarget : Parser Unit := do
  expect .assign
  let c ← cursor
  if c.token.isWord "require" &&
      c.next.token.isPunct .lparen then
    advance
    advance
    let _ ← stringLiteral
    expect .rparen
  else
    entityName Token.isBinding
  semicolon

/- When a module that is imported is run. -/
inductive Phase where
  | evaluation
  | source
  | defer
  deriving DecidableEq

/- The phase that a word stands for. -/
def Phase.ofText?
    (w : Text) : Option Phase :=
  if w = "source".toList then some .source
  else if w = "defer".toList then some .defer
  else none

/- Whether a list of names, or all of them, follows. -/
def isAtNames : Parser Bool :=
  isAtAny [.lbrace, .star]

/-
  The first name of an import after `type`: another name
  that only types are taken under, or none in front of a
  list.
-/
def nameAfterType
    (sc : Scope) : Parser (Option Text) := do
  if ← isAtNames then
    return none
  let c ← cursor
  if c.token.isReference then
    if !c.token.isWord "from" ||
        c.next.token.isWord "from" then
      return some (← bindingName sc)
    if c.next.token.isPunct .assign then
      return some (← anyWord)
  return some "type".toList

/- The first name of an import, if it has one. -/
def importName
    (sc : Scope) : Parser (Option Text) := do
  let name ← reference
  if sc.types && name = "type".toList then
    nameAfterType sc
  else
    return some name

/- The name after a phase, if the word was a phase. -/
def nameAfterPhase
    (sc : Scope)
    (phase : Phase) : Parser (Phase × Bool) := do
  if ← isAtNames then
    return (phase, false)
  let c ← cursor
  if (c.token.isReference && !c.token.isWord "from") ||
      c.next.token.isWord "from" then
    let _ ← bindingName sc
    return (phase, true)
  return (.evaluation, true)

/-
  The names of an import besides its first one.  Their
  kinds depend on the phase.
-/
def importNames
    (sc : Scope)
    (phase : Phase) : Parser Unit := do
  if phase != .source && (← isAt .star) then
    advance
    expectWord "as"
    let _ ← bindingName sc
  else if phase = .evaluation && (← isAt .lbrace) then
    namesInBraces (importSpecifier sc)

/- What is imported, from a phase or a first name on. -/
def importRest
    (r : Rules)
    (sc : Scope)
    (phase : Phase)
    (named : Bool) : Parser Unit := do
  if named && !(← isAtWord "from") then
    expect .comma
  importNames sc phase
  fromClause r sc

/- An import that starts with a name. -/
def importNamed
    (r : Rules)
    (sc : Scope) : Parser Unit := do
  match ← importName sc with
  | none => importRest r sc .evaluation false
  | some name =>
      if sc.types && (← isAt .assign) then
        importTarget
      else
        match Phase.ofText? name with
        | some phase =>
            let (phase, named) ← nameAfterPhase sc phase
            importRest r sc phase named
        | none => importRest r sc .evaluation true

/- An import after its word. -/
def importItem
    (r : Rules)
    (sc : Scope) : Parser Unit := do
  let here ← token
  if here.isString then
    moduleName r sc
    anySemicolon
  else if here.isReference then
    importNamed r sc
  else
    importRest r sc .evaluation false

------------------------------------------------------------
-- Default Exports
------------------------------------------------------------

/- Decorators, which stand on one side of `export` only. -/
def lateMarks
    (r : Rules)
    (sc : Scope)
    (before : Marks) : Parser Marks := do
  if ← isAt .at then
    let late ← marks r sc
    require before.decorators.isEmpty
    return late
  return before

/- A class that is the default export, from its word on. -/
def defaultClass
    (r : Rules)
    (sc : Scope)
    (lo : Nat)
    (before : Marks) : Parser Shape := do
  noteAll before.inner
  expectWord "class"
  let name ← classRest r sc false
  return .exportDefault name
    { lo := lo, decorators := before.decorators }

/- A function that is the default export. -/
def defaultFunction
    (r : Rules)
    (sc : Scope)
    (async : Bool)
    (before : Marks) : Parser Shape := do
  let generator ← eat .star
  let here ← token
  if here.isReference || (sc.types && here.isWord "this") then
    advance
  functionRest r sc.ofPlainFunction async generator
    before.inner
  return .other

/- An expression that is the default export. -/
def defaultValue
    (r : Rules)
    (sc : Scope) : Parser Shape := do
  let _ ← r.assign sc
  semicolon
  return .other

/- What is the default export where no types are. -/
def plainDefault
    (r : Rules)
    (sc : Scope)
    (before : Marks) : Parser Shape := do
  let c ← cursor
  if c.token.isWord "class" then
    defaultClass r sc c.lo before
  else if c.token.isWord "async" && !c.next.newline &&
      c.next.token.isWord "function" then
    advance
    advance
    defaultFunction r sc true before
  else if c.token.isWord "function" then
    advance
    defaultFunction r sc false before
  else
    defaultValue r sc

/- The default export after `default`. -/
def exportDefault
    (r : Rules)
    (sc : Scope)
    (outer : Marks) : Parser Shape := do
  let before ← lateMarks r sc outer
  let c ← cursor
  let abstract := sc.types && c.token.isWord "abstract"
  if abstract && c.next.token.isWord "class" &&
      !c.next.newline then
    advance
    defaultClass r sc c.lo before
  else if abstract && c.next.token.isWord "interface" then
    advance
    advance
    interfaceRest r sc
    return .other
  else if sc.types && c.token.isWord "interface" then
    advance
    interfaceRest r sc
    return .other
  else
    plainDefault r sc before

------------------------------------------------------------
-- Other Exports
------------------------------------------------------------

/- All that another module exports, maybe under a name. -/
def exportAll
    (r : Rules)
    (sc : Scope) : Parser Unit := do
  expect .star
  exportedAs
  fromClause r sc

/- Names in braces, which may come from another module. -/
def exportNames
    (r : Rules)
    (sc : Scope) : Parser Unit := do
  namesInBraces (exportSpecifier sc)
  if ← isAtWord "from" then
    fromClause r sc
  else
    anySemicolon

/- Names or all names. -/
def exportList
    (r : Rules)
    (sc : Scope) : Parser Shape := do
  if ← isAt .star then
    exportAll r sc
  else
    exportNames r sc
  return .other

/- A class, once exported. -/
def exported : Shape → Shape
  | .classDecl name decl => .exportClass name decl
  | shape => shape

/- An export of something declared along with it. -/
def exportDeclaration
    (r : Rules)
    (sc : Scope)
    (outer : Marks) : Parser Shape := do
  let before ← lateMarks r sc outer
  match ← codeDeclaration r sc before with
  | some shape => return exported shape
  | none =>
      let c ← cursor
      if sc.types && c.token.isWord "const" &&
          c.next.token.isWord "enum" then
        advance
        advance
        enumRest r sc
        return .other
      else if startsVariables c then
        variableDeclaration r sc
        return .other
      else
        exportList r sc

/- A name for a namespace of another module. -/
def exportImport : Parser Unit := do
  let c ← cursor
  if c.token.isWord "type" && c.next.token.isAnyWord then
    advance
  let _ ← anyWord
  importTarget

/- An export that needs types, if there is one here. -/
def exportTyped
    (r : Rules)
    (sc : Scope)
    (lo : Nat)
    (before : Marks) : Parser (Option Shape) := do
  let leading : Parser Shape := do
    match ← leadingDeclaration r sc lo before with
    | some shape => return exported shape
    | none => fail
  match ← attempt leading with
  | some shape => return some shape
  | none =>
      if ← eatWord "import" then
        exportImport
        return some .other
      else if ← eat .assign then
        let _ ← expression r sc
        semicolon
        return some .other
      else if ← eatWord "as" then
        expectWord "namespace"
        let _ ← bindingName sc
        semicolon
        return some .other
      else
        return none

/- An export from a `type` that may stand here on. -/
def exportPlain
    (r : Rules)
    (sc : Scope)
    (before : Marks) : Parser Shape := do
  let typeOnly ←
    if sc.types then eatWord "type" else pure false
  if typeOnly then
    let _ ← lateMarks r sc before
    exportList r sc
  else if ← eatWord "default" then
    exportDefault r sc before
  else
    exportDeclaration r sc before

/- A declaration without code that is exported. -/
def exportAmbient
    (r : Rules)
    (sc : Scope)
    (lo : Nat)
    (before : Marks) : Parser (Option Shape) := do
  if sc.types then
    if ← eatWord "declare" then
      let shape ← ambientDeclaration r sc lo before
      return shape.map exported
  return none

/- An export after its word. -/
def exportItem
    (r : Rules)
    (sc : Scope)
    (before : Marks) : Parser Shape := do
  let lo ← position
  match ← exportAmbient r sc lo before with
  | some shape => return shape
  | none =>
      let typed ←
        if sc.types then
          exportTyped r sc lo before
        else
          pure none
      match typed with
      | some shape => return shape
      | none => exportPlain r sc before

------------------------------------------------------------
-- Items
------------------------------------------------------------

/- What an item of a module or namespace is. -/
def itemShape
    (r : Rules)
    (sc : Scope) : Parser Shape := do
  let before ← marks r sc
  let c ← cursor
  if startsImportExpr c then
    importStatement r sc
  else if c.token.isWord "import" then
    advance
    importItem r sc
    return .other
  else if c.token.isWord "export" then
    advance
    exportItem r sc before
  else
    statementWith r sc true before

/- An item with the namespaces inside it. -/
def item
    (r : Rules)
    (sc : Scope) : Parser Item := do
  let (shape, inner) ← isolate (itemShape r sc)
  return .mk shape inner

/-
  The items of a namespace up to its closing brace, which
  is read.  At the end of the script it may be missing.
-/
def items
    (r : Rules)
    (sc : Scope) : Parser (List Item) :=
  collect do
    if ← eat .rbrace then
      return none
    if (← token) == .finish then
      return none
    return some (← item r sc)

/- The items of a module up to its end. -/
def moduleItems
    (r : Rules)
    (sc : Scope) : Parser (List Item) :=
  collect do
    if (← token) == .finish then
      return none
    return some (← item r sc)

end Grammar
end Script
end ComponentLoader
