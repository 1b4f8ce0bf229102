import ComponentLoader.Script.Grammar.Expressions

/-
  This file holds the rules for declarations: variables,
  functions, classes and what only exists with types.

  Key definitions include:
    * `Script.Grammar.variableList`
    * `Script.Grammar.classDeclaration`
    * `Script.Grammar.namespaceRest`
    * `Script.Grammar.TypeWord.declaration`
    * `Script.Grammar.ambientDeclaration`
    * `Script.Grammar.declaration`
-/

namespace ComponentLoader
namespace Script
namespace Grammar

open Script.Parser

------------------------------------------------------------
-- Decorators Before A Declaration
------------------------------------------------------------

/- Decorators, and the namespaces declared inside them. -/
structure Marks where
  decorators : List Decorator
  inner : List Namespace

/- No decorators. -/
def Marks.none : Marks :=
  { decorators := [], inner := [] }

/- The decorators that start here. -/
def marks
    (r : Rules)
    (sc : Scope) : Parser Marks := do
  let (found, inner) ← isolate (decorators r sc)
  return { decorators := found, inner := inner }

------------------------------------------------------------
-- Variables
------------------------------------------------------------

/- What declares variables. -/
inductive Binder where
  /- `var` or `using`. -/
  | wide
  /- `let`. -/
  | plain
  /- `const`. -/
  | fixed
  deriving DecidableEq

/- What a word declares variables as. -/
def Binder.ofToken
    (t : Token) : Binder :=
  if t.isWord "const" then .fixed
  else if t.isWord "let" then .plain
  else .wide

/-
  A variable with its value.  A pattern has to have one,
  except in front of what a loop runs over, without code
  and outside of loops if it is fixed.
-/
def oneVariable
    (r : Rules)
    (sc : Scope)
    (binder : Binder)
    (inLoop : Bool) : Parser Unit := do
  require (binder = .wide || !(← isAtWord "let"))
  let isName ← r.pattern sc
  if sc.types && isName then
    let _ ← eat .bang
  annotation r sc
  if inLoop && (← token).isOneOf ["in", "of"] then
    return ()
  if ← eat .assign then
    let _ ← r.assign sc
  else
    require (isName || sc.ambient ||
      (binder = .fixed && !inLoop))

/- Variables with commas between them; there may be none. -/
def variableList
    (r : Rules)
    (sc : Scope)
    (binder : Binder)
    (inLoop : Bool) : Parser Unit :=
  repeatWhile do
    if (← isAt .semi) || (← token) == .finish then
      return false
    oneVariable r sc binder inLoop
    eat .comma

/- Whether `let` before a token declares variables. -/
def followsLet : Token → Bool
  | .word w escaped => escaped || !isKeyword w
  | .punct .lbrace => true
  | .punct .lbracket => true
  | _ => false

/- Whether a declaration of variables starts at a cursor. -/
def startsVariables
    (c : Cursor) : Bool :=
  c.token.isOneOf ["const", "var"] ||
    (c.token.isWord "let" && followsLet c.next.token)

/-
  A declaration of variables.  If it does not end where it
  should, all that follows up to an end belongs to it.
-/
def variableDeclaration
    (r : Rules)
    (sc : Scope) : Parser Unit := do
  let binder := Binder.ofToken (← token)
  advance
  variableList r sc binder false
  if !(← eatSemicolon) then
    skim (expression r sc)
    repeatWhile do
      if ← eatSemicolon then
        return false
      advance
      return (← token) != .invalid

/- Whether variables that are disposed of start here. -/
def startsUsing
    (c : Cursor) : Bool :=
  c.token.isWord "using" && c.next.token.isReference &&
    !c.next.newline

/- A declaration of such variables. -/
def usingDeclaration
    (r : Rules)
    (sc : Scope) : Parser Unit := do
  advance
  variableList r sc .wide false
  semicolon

------------------------------------------------------------
-- Functions And Classes
------------------------------------------------------------

/- A function after `function`, with its name. -/
def functionDeclaration
    (r : Rules)
    (sc : Scope)
    (async : Bool)
    (before : Marks) : Parser Unit := do
  let generator ← eat .star
  let _ ← bindingName sc
  functionRest r sc.ofPlainFunction async generator
    before.inner

/- A class from its word on. -/
def classDeclaration
    (r : Rules)
    (sc : Scope)
    (lo : Nat)
    (before : Marks) : Parser Shape := do
  noteAll before.inner
  expectWord "class"
  match ← classRest r sc true with
  | some name =>
      return .classDecl name
        { lo := lo, decorators := before.decorators }
  | none => fail

------------------------------------------------------------
-- Enumerations, Interfaces And Aliases
------------------------------------------------------------

/- The name of a member of an enumeration. -/
def enumKey
    (r : Rules)
    (sc : Scope) : Parser Unit := do
  match ← token with
  | .word _ _ | .string _ | .number _ => advance
  | .punct .lbracket =>
      let _ ← isolate (computedName r sc)
  | _ => fail

/-
  A member of an enumeration.  A token between its name
  and what should follow it is passed over.
-/
def enumMember
    (r : Rules)
    (sc : Scope) : Parser Unit := do
  enumKey r sc
  if ← eat .assign then
    let _ ← r.assign sc
  else if !(← isAtAny [.comma, .rbrace]) then
    advance

/- An enumeration after `enum`; commas may be missing. -/
def enumRest
    (r : Rules)
    (sc : Scope) : Parser Unit := do
  let _ ← anyWord
  expect .lbrace
  repeatWhile do
    if ← eat .rbrace then
      return false
    enumMember r sc
    let _ ← eat .comma
    return true

/-
  An interface after `interface`.  What it extends is said
  once; more of that is passed over.
-/
def interfaceRest
    (r : Rules)
    (sc : Scope) : Parser Unit := do
  let _ ← anyWord
  typeParametersHere r sc
  if ← eatWord "extends" then
    heritage r sc
  if ← isAtWord "extends" then
    repeatWhile do
      if (← isAt .lbrace) || (← token) == .finish then
        return false
      advance
      return true
  typeMembers r sc

/- A type alias after `type`. -/
def aliasRest
    (r : Rules)
    (sc : Scope) : Parser Unit := do
  let _ ← anyWord
  typeParametersHere r sc
  expect .assign
  r.type sc
  semicolon

------------------------------------------------------------
-- Namespaces
------------------------------------------------------------

/- The items of a namespace in braces. -/
def namespaceBody
    (r : Rules)
    (sc : Scope) : Parser (List Item) := do
  expect .lbrace
  r.items sc

/- Items inside namespaces inside each other. -/
def nested : List Text → List Item → List Item
  | [], items => items
  | name :: names, items =>
      [.mk .other [.mk (some name) (nested names items)]]

/- A namespace after its word, with its dotted name. -/
def namespaceRest
    (r : Rules)
    (sc : Scope) : Parser Unit := do
  let first ← anyWord
  let more ← collect do
    if ← eat .dot then
      return some (← anyWord)
    return none
  let items ← namespaceBody r sc
  note (.mk (some first) (nested more items))

/- A body that may be missing, as that of a namespace. -/
def ambientBody
    (r : Rules)
    (sc : Scope)
    (name : Option Text) : Parser Unit := do
  if ← isAt .lbrace then
    note (.mk name (← namespaceBody r sc))
  else
    semicolon

/- A module after its word: by a string or a name. -/
def moduleRest
    (r : Rules)
    (sc : Scope) : Parser Unit := do
  if (← token).isString then
    advance
    ambientBody r sc none
  else
    namespaceRest r sc

/- The name of the namespace that is always there. -/
def globalName : Text :=
  "global".toList

------------------------------------------------------------
-- Words That Declare With Types
------------------------------------------------------------

/- A word that starts a declaration that needs types. -/
inductive TypeWord where
  | abstractClass
  | enumeration
  | interface
  | moduleOrName
  | namespaceName
  | typeAlias
  deriving DecidableEq

namespace TypeWord

/- What a word starts, if it starts anything. -/
def ofText?
    (w : Text) : Option TypeWord :=
  if w = "abstract".toList then some abstractClass
  else if w = "enum".toList then some enumeration
  else if w = "interface".toList then some interface
  else if w = "module".toList then some moduleOrName
  else if w = "namespace".toList then some namespaceName
  else if w = "type".toList then some typeAlias
  else none

/- Whether a word starts something before a cursor. -/
def isBefore
    (word : TypeWord)
    (c : Cursor) : Bool :=
  match word with
  | abstractClass => c.token.isWord "class" && !c.newline
  | enumeration => c.token.isReference
  | interface => c.token.isReference
  | moduleOrName =>
      (c.token.isString || c.token.isReference) && !c.newline
  | namespaceName => c.token.isReference
  | typeAlias => c.token.isReference && !c.newline

/- A declaration after the word that starts it. -/
def declaration
    (word : TypeWord)
    (r : Rules)
    (sc : Scope)
    (lo : Nat)
    (before : Marks) : Parser Shape := do
  match word with
  | abstractClass => classDeclaration r sc lo before
  | enumeration =>
      enumRest r sc
      return .other
  | interface =>
      interfaceRest r sc
      return .other
  | moduleOrName =>
      moduleRest r sc
      return .other
  | namespaceName =>
      namespaceRest r sc
      return .other
  | typeAlias =>
      aliasRest r sc
      return .other

end TypeWord

/-
  A declaration that starts with a word here, whatever
  follows it.  `module` is not taken from the next line.
-/
def leadingDeclaration
    (r : Rules)
    (sc : Scope)
    (lo : Nat)
    (before : Marks) : Parser (Option Shape) := do
  let c ← cursor
  match c.token with
  | .word w _ =>
      match TypeWord.ofText? w with
      | some word =>
          if word = .moduleOrName && c.newline then
            return none
          advance
          return some (← word.declaration r sc lo before)
      | none => return none
  | _ => return none

/- A declaration without code, after `declare`. -/
def ambientDeclaration
    (r : Rules)
    (outer : Scope)
    (lo : Nat)
    (before : Marks) : Parser (Option Shape) := do
  let sc := { outer with ambient := true }
  let c ← cursor
  let here := c.token
  if here.isWord "function" then
    advance
    functionDeclaration r sc false before
    return some .other
  else if here.isWord "class" then
    return some (← classDeclaration r sc lo before)
  else if here.isWord "const" &&
      c.next.token.isWord "enum" then
    advance
    advance
    enumRest r sc
    return some .other
  else if here.isOneOf ["const", "let", "var"] then
    variableDeclaration r sc
    return some .other
  else if here.isWord "global" then
    advance
    ambientBody r sc (some globalName)
    return some .other
  else
    leadingDeclaration r sc lo before

/-
  A declaration that starts with a name that has been read
  as an expression, if the name and what follows it start
  one.
-/
def namedDeclaration
    (r : Rules)
    (sc : Scope)
    (lo : Nat)
    (before : Marks)
    (name : Text) : Parser (Option Shape) := do
  let c ← cursor
  if name = "declare".toList then
    ambientDeclaration r sc lo before
  else if name = globalName && c.token.isPunct .lbrace then
    ambientBody r sc (some globalName)
    return some .other
  else if name = "abstract".toList &&
      c.token.isWord "interface" then
    advance
    interfaceRest r sc
    return some .other
  else
    match TypeWord.ofText? name with
    | some word =>
        if word.isBefore c then
          return some (← word.declaration r sc lo before)
        return none
    | none => return none

------------------------------------------------------------
-- Declarations
------------------------------------------------------------

/- A function or a class, if one starts here. -/
def codeDeclaration
    (r : Rules)
    (sc : Scope)
    (before : Marks) : Parser (Option Shape) := do
  let c ← cursor
  if c.token.isWord "function" then
    advance
    functionDeclaration r sc false before
    return some .other
  else if c.token.isWord "class" then
    return some (← classDeclaration r sc c.lo before)
  else if c.token.isWord "async" && !c.next.newline &&
      c.next.token.isWord "function" then
    advance
    advance
    functionDeclaration r sc true before
    return some .other
  else
    return none

/- A declaration by a word of its own, if one starts here. -/
def typeDeclaration
    (r : Rules)
    (sc : Scope) : Parser (Option Shape) := do
  let c ← cursor
  if c.token.isWord "const" && c.next.token.isWord "enum" then
    advance
    advance
    enumRest r sc
    return some .other
  else if c.token.isOneOf ["enum", "interface", "type"] &&
      c.next.token.isAnyWord && !c.next.newline then
    leadingDeclaration r sc c.lo .none
  else
    return none

/-
  Variables, if a declaration of them starts here.  Some
  of them are not declared where a single statement is.
-/
def bindingDeclaration
    (r : Rules)
    (sc : Scope)
    (declOk : Bool) : Parser (Option Shape) := do
  let c ← cursor
  if c.token.isWord "var" ||
      (declOk && startsVariables c) then
    variableDeclaration r sc
    return some .other
  else if declOk && startsUsing c then
    usingDeclaration r sc
    return some .other
  else
    return none

/- A declaration, if one starts here. -/
def declaration
    (r : Rules)
    (sc : Scope)
    (declOk : Bool)
    (before : Marks) : Parser (Option Shape) := do
  let typed ←
    if sc.types then typeDeclaration r sc else pure none
  match typed with
  | some shape => return some shape
  | none =>
      match ← codeDeclaration r sc before with
      | some shape => return some shape
      | none => bindingDeclaration r sc declOk

end Grammar
end Script
end ComponentLoader
