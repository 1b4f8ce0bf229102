import ComponentLoader.Script.Grammar.Patterns

/-
  This file holds the rules for types.  Nothing is kept of
  a type; it only has to be well formed.

  Key definitions include:
    * `Script.Grammar.typeArguments`
    * `Script.Grammar.typeParameters`
    * `Script.Grammar.returnType`
    * `Script.Grammar.typeMembers`
    * `Script.Grammar.plainType`
    * `Script.Grammar.type`
    * `Script.Grammar.heritage`
-/

namespace ComponentLoader
namespace Script
namespace Grammar

open Script.Parser

------------------------------------------------------------
-- Lists
------------------------------------------------------------

/- Items with commas between them up to a closing sign. -/
def itemsUpTo
    (isClosed : Parser Bool)
    (item : Parser Unit) : Parser Unit :=
  repeatWhile do
    if ← isClosed then
      return false
    item
    if ← eat .comma then
      return true
    require (← isClosed)
    return false

/- Whether an angle bracket opens a list here. -/
def isAtAngle : Parser Bool :=
  isAtAny [.lt, .shl]

/- Items in angle brackets. -/
def angleList
    (item : Parser Unit) : Parser Unit := do
  require (← isAtAngle)
  expectChar '<'
  itemsUpTo (isAtChar '>') item
  expectChar '>'

/- The arguments of a generic type. -/
def typeArguments
    (r : Rules)
    (sc : Scope) : Parser Unit :=
  angleList (r.type sc)

/-
  The arguments of a generic function in an expression.
  The closing bracket must not be part of an operator.
-/
def callTypeArguments
    (r : Rules)
    (sc : Scope) : Parser Unit := do
  require (← isAtAngle)
  expectChar '<'
  itemsUpTo (isAt .gt) (r.type sc)
  expect .gt

/- Arguments right after a type, if there are any. -/
def typeArgumentsHere
    (r : Rules)
    (sc : Scope) : Parser Unit := do
  if (← isAtAngle) && !(← newline) then
    typeArguments r sc

/- The words that may stand before a type parameter. -/
def parameterModifiers : List String :=
  ["public", "private", "protected", "readonly",
    "abstract", "const", "override", "in", "out"]

/- A parameter of a generic type or function. -/
def typeParameter
    (r : Rules)
    (sc : Scope) : Parser Unit := do
  repeatWhile (eatModifier parameterModifiers)
  let _ ← anyWord
  if ← eatWord "extends" then
    r.type sc
  if ← eat .assign then
    r.type sc

/- The parameters of a generic type or function. -/
def typeParameters
    (r : Rules)
    (sc : Scope) : Parser Unit := do
  require (← isAt .lt)
  angleList (typeParameter r sc)

/- Such parameters, if there are any. -/
def typeParametersHere
    (r : Rules)
    (sc : Scope) : Parser Unit := do
  if ← isAt .lt then
    typeParameters r sc

/- The same where types may be written at all. -/
def optionalTypeParameters
    (r : Rules)
    (sc : Scope) : Parser Unit := do
  if sc.types then
    typeParametersHere r sc

------------------------------------------------------------
-- Results
------------------------------------------------------------

/- Whether a predicate starts here, at its name. -/
def isAtPredicate : Parser Bool := do
  let there ← peek
  return (← token).isReference &&
    there.token.isWord "is" && !there.newline

/- What a function gives back: a type or a predicate. -/
def returnType
    (r : Rules)
    (sc : Scope) : Parser Unit := do
  let asserts := (← isAtWord "asserts") &&
    (← peek).token.isReference
  if asserts then
    advance
  if ← isAtPredicate then
    advance
    advance
    r.type sc
  else if asserts then
    advance
  else
    r.type sc

/- The same after a colon, if there is one. -/
def returnAnnotation
    (r : Rules)
    (sc : Scope) : Parser Unit := do
  if ← eat .colon then
    returnType r sc

/- Parameters and result of a callable type. -/
def signature
    (r : Rules)
    (sc : Scope) : Parser Unit := do
  typeParametersHere r sc
  typeParams r sc
  returnAnnotation r sc

------------------------------------------------------------
-- Members
------------------------------------------------------------

/- The end of a member of a type. -/
def memberEnd : Parser Unit := do
  if !(← eat .comma) then
    semicolon

/- Whether an index in brackets starts here. -/
def isAtIndex : Parser Bool := do
  if !(← isAt .lbracket) then
    return false
  let inner ← peek
  let after := inner.next.token
  return inner.token.isReference &&
    (after.isPunct .colon || after.isPunct .comma)

/- A type after a colon, also where none are written. -/
def typeAnnotation
    (r : Rules)
    (sc : Scope) : Parser Unit := do
  if ← eat .colon then
    r.type sc

/- An index in brackets with its type, to its end. -/
def indexSignature
    (r : Rules)
    (sc : Scope) : Parser Unit := do
  expect .lbracket
  let _ ← anyWord
  advance
  r.type sc
  expect .rbracket
  typeAnnotation r sc
  memberEnd

/- The name of a member of a type. -/
def memberName
    (r : Rules)
    (sc : Scope) : Parser Unit := do
  match ← token with
  | .punct .lbracket =>
      advance
      let _ ← r.assign { sc with inOk := false }
      expect .rbracket
  | .word _ _ => advance
  | .string _ => advance
  | .number _ => advance
  | .privateName => advance
  | _ => fail

/- An accessor that a type has. -/
def accessorSignature
    (r : Rules)
    (sc : Scope) : Parser Unit := do
  if ← eatWord "get" then
    memberName r sc
    expect .lparen
    expect .rparen
    typeAnnotation r sc
  else
    expectWord "set"
    memberName r sc
    let bounds ← params r sc
    require (!bounds.isEmpty &&
      bounds.all fun b => b != .given)
  memberEnd

/- A property or a method that a type has. -/
def propertySignature
    (r : Rules)
    (sc : Scope)
    (readonly : Bool) : Parser Unit := do
  memberName r sc
  let _ ← eat .question
  if ← isAtAny [.lparen, .lt] then
    require (!readonly)
    signature r sc
  else
    typeAnnotation r sc
  memberEnd

/- A member of an interface or an object type. -/
def typeMember
    (r : Rules)
    (sc : Scope) : Parser Unit := do
  let there := (← peek).token
  if ← isAtAny [.lparen, .lt] then
    signature r sc
    memberEnd
  else if (← isAtWord "new") &&
      (there.isPunct .lparen || there.isPunct .lt) then
    advance
    signature r sc
    memberEnd
  else
    let readonly ← eatModifier ["readonly"]
    if ← isAtIndex then
      indexSignature r sc
    else
      let accessor : Parser Unit := do
        require (!readonly)
        accessorSignature r sc
      match ← attempt accessor with
      | some () => return ()
      | none => propertySignature r sc readonly

/- The members of an interface or an object type. -/
def typeMembers
    (r : Rules)
    (sc : Scope) : Parser Unit := do
  expect .lbrace
  repeatWhile do
    if ← eat .rbrace then
      return false
    typeMember r sc
    return true

/- Whether a type that maps over keys starts here. -/
def mappedStart : Parser Unit := do
  expect .lbrace
  if ← eatAny [.plus, .minus] then
    require (← isAtWord "readonly")
  else
    let _ ← eatWord "readonly"
    expect .lbracket
    let _ ← reference
    require (← isAtWord "in")

/- A sign before a word or a mark that it adds or takes. -/
def signed
    (eatIt : Parser Bool) : Parser Unit := do
  if ← eatAny [.plus, .minus] then
    require (← eatIt)
  else
    let _ ← eatIt

/- A type that maps over keys. -/
def mappedType
    (r : Rules)
    (sc : Scope) : Parser Unit := do
  expect .lbrace
  signed (eatWord "readonly")
  expect .lbracket
  let _ ← anyWord
  expectWord "in"
  r.type sc
  if ← eatWord "as" then
    r.type sc
  expect .rbracket
  signed (eat .question)
  typeAnnotation r sc
  semicolon
  expect .rbrace

------------------------------------------------------------
-- Names Of Types
------------------------------------------------------------

/- Names after dots; the last one may be missing. -/
def dotted
    (test : Token → Bool) : Parser Unit :=
  repeatWhile do
    if ← eat .dot then
      match ← token with
      | .word _ _ =>
          let _ ← wordThat test
          return true
      | .privateName => fail
      | .punct .hash => fail
      | _ => return false
    return false

/- A name with the names after its dots. -/
def entityName
    (test : Token → Bool) : Parser Unit := do
  let _ ← anyWord
  dotted test

/- The options of a type taken from another module. -/
def importOptions
    (object : Parser Unit) : Parser Unit := do
  expect .lbrace
  expectWord "with"
  expect .colon
  object
  let _ ← eat .comma
  expect .rbrace

/- A type taken from another module. -/
def importType
    (r : Rules)
    (sc : Scope) : Parser Unit := do
  expectWord "import"
  expect .lparen
  advance
  if ← eat .comma then
    if sc.types && (← isAt .lbrace) then
      importOptions do
        require (← isAt .lbrace)
        let _ ← r.operand sc
  expect .rparen
  if ← eat .dot then
    entityName Token.isBinding
  if ← isAtAngle then
    typeArguments r sc

/- The words that are types by themselves. -/
def typeWords : List String :=
  ["any", "bigint", "boolean", "intrinsic", "never", "null",
    "number", "object", "string", "symbol", "undefined",
    "unknown", "void"]

/- The reserved words that can name a type. -/
def typeNames : List String :=
  ["await", "break", "null", "void", "yield"]

/- A type by its name. -/
def namedType
    (r : Rules)
    (sc : Scope) : Parser Unit := do
  let here ← token
  require (here.isReference || here.isOneOf typeNames)
  if here.isOneOf typeWords &&
      !(← peek).token.isPunct .dot then
    advance
  else
    entityName Token.isAnyWord
    typeArgumentsHere r sc

/- The type of a value. -/
def queryType
    (r : Rules)
    (sc : Scope) : Parser Unit := do
  expectWord "typeof"
  if ← isAtWord "import" then
    importType r sc
  else
    entityName Token.isAnyWord
    typeArgumentsHere r sc

/- What is known of `this`, after it. -/
def thisPredicate
    (r : Rules)
    (sc : Scope) : Parser Unit := do
  if ← eatWord "is" then
    r.type sc

------------------------------------------------------------
-- Simple Types
------------------------------------------------------------

/- The label of an element of a tuple, if it has one. -/
def tupleLabel : Parser Unit := do
  let label : Parser Unit := do
    let _ ← eat .ellipsis
    let _ ← anyWord
    let _ ← eat .question
    expect .colon
  let _ ← attempt label

/- What an element of a tuple is. -/
inductive TupleElement where
  | required
  | optional
  | rest
  deriving DecidableEq

/- An element of a tuple. -/
def tupleElement
    (r : Rules)
    (sc : Scope) : Parser TupleElement := do
  tupleLabel
  if ← eat .ellipsis then
    r.type sc
    return .rest
  r.type sc
  if ← eat .question then
    return .optional
  return .required

/- Whether no required element follows an optional one. -/
def isTupleOrder : List TupleElement → Bool
  | [] => true
  | .optional :: rest => rest.all fun e => e != .required
  | _ :: rest => isTupleOrder rest

/- The elements of a tuple, after its bracket. -/
def tupleRest
    (r : Rules)
    (sc : Scope) : Parser Unit := do
  let elements ← commaList .rbracket (tupleElement r sc)
  require (isTupleOrder elements)

/- A type that starts with a word. -/
def wordType
    (r : Rules)
    (sc : Scope)
    (here : Token) : Parser Unit := do
  if here.isWord "asserts" &&
      (← peek).token.isWord "this" then
    advance
    advance
    thisPredicate r sc
  else if here.isWord "this" then
    advance
    if !(← newline) then
      thisPredicate r sc
  else if here.isWord "typeof" then
    queryType r sc
  else if here.isWord "import" then
    importType r sc
  else if here.isOneOf ["true", "false"] then
    advance
  else
    namedType r sc

/- A type without operators around it. -/
def simpleType
    (r : Rules)
    (sc : Scope) : Parser Unit := do
  match ← token with
  | .string _ | .number _ | .bigint => advance
  | .punct .minus =>
      advance
      match ← token with
      | .number _ | .bigint => advance
      | _ => fail
  | .punct .backtick => template false (r.type sc)
  | .punct .lbrace =>
      if ← wouldParse mappedStart then
        mappedType r sc
      else
        typeMembers r sc
  | .punct .lbracket =>
      advance
      tupleRest r sc
  | .punct .lparen =>
      advance
      r.type sc
      expect .rparen
  | .word w escaped => wordType r sc (.word w escaped)
  | _ => fail

------------------------------------------------------------
-- Operators On Types
------------------------------------------------------------

/- Brackets after a type: an array or an access. -/
def typeSuffix
    (r : Rules)
    (sc : Scope) : Parser Bool := do
  if (← isAt .lbracket) && !(← newline) then
    advance
    if !(← eat .rbracket) then
      r.type sc
      expect .rbracket
    return true
  return false

/- The bound of an inferred type, if there is one. -/
def inferBound
    (r : Rules)
    (sc : Scope) : Parser Unit := do
  expectWord "extends"
  r.plainType sc.plainType
  if sc.conditionalOk then
    require (!(← isAt .question))

/- A type with the operators before and after it. -/
def operatorType
    (r : Rules)
    (sc : Scope) : Parser Unit := do
  repeatWhile (eatWordOf ["keyof", "unique"])
  if ← eatWord "infer" then
    let _ ← anyWord
    let _ ← attempt (inferBound r sc)
  else
    let _ ← eatModifier ["readonly"]
    simpleType r sc
    repeatWhile (typeSuffix r sc)

/- Types joined by a punctuator, which may come first. -/
def joinedTypes
    (p : Punct)
    (part : Parser Unit) : Parser Unit := do
  let _ ← eat p
  part
  repeatWhile do
    if ← eat p then
      part
      return true
    return false

/- A union of intersections. -/
def unionType
    (r : Rules)
    (sc : Scope) : Parser Unit :=
  joinedTypes .bar (joinedTypes .amp (operatorType r sc))

------------------------------------------------------------
-- Types
------------------------------------------------------------

/- The start of parameters, as opposed to a type. -/
def startsParams
    (r : Rules)
    (sc : Scope) : Parser Unit := do
  expect .lparen
  if (← isAt .rparen) || (← isAt .ellipsis) then
    return ()
  skipModifier sc
  match ← token with
  | .word _ _ => advance
  | _ =>
      let _ ← r.pattern sc
  if ← isAtAny [.colon, .comma, .question, .assign] then
    return ()
  expect .rparen
  require (← isAt .arrow)

/- The type of a function. -/
def functionType
    (r : Rules)
    (sc : Scope) : Parser Unit := do
  typeParametersHere r sc
  typeParams r sc
  expect .arrow
  returnType r sc

/- A type without a condition. -/
def plainType
    (r : Rules)
    (sc : Scope) : Parser Unit := do
  let here ← token
  let there ← peek
  if here.isPunct .lt || (here.isPunct .lparen &&
      (← wouldParse (startsParams r sc))) then
    functionType r sc
  else if here.isWord "new" then
    advance
    functionType r sc
  else if here.isWord "abstract" &&
      there.token.isWord "new" then
    advance
    advance
    functionType r sc
  else
    unionType r sc

/- A type. -/
def type
    (r : Rules)
    (outer : Scope) : Parser Unit := do
  let sc := outer.anyType
  plainType r sc
  if (← isAtWord "extends") && !(← newline) then
    advance
    r.plainType sc.plainType
    expect .question
    r.type sc
    expect .colon
    r.type sc

------------------------------------------------------------
-- Interfaces Named By Others
------------------------------------------------------------

/- What may follow the name of an interface. -/
def heritageLink
    (r : Rules)
    (sc : Scope) : Parser Bool := do
  if (← isAt .bang) && !(← newline) then
    advance
    return true
  if ← eatAny [.dot, .optionalDot] then
    match ← token with
    | .word _ _ | .privateName => advance
    | _ => fail
    return true
  if ← isAt .backtick then
    template true do
      let _ ← r.assign sc.bracketed
    return true
  return false

/- An interface that is extended or implemented. -/
def heritageElement
    (r : Rules)
    (sc : Scope) : Parser Unit := do
  let _ ← anyWord
  repeatWhile (heritageLink r sc)
  if ← isAtAngle then
    typeArguments r sc

/- Interfaces that are extended or implemented. -/
def heritage
    (r : Rules)
    (sc : Scope) : Parser Unit :=
  itemsUpTo
    (do return (← isAt .lbrace) ||
      (← isAtWord "implements") || (← isAtWord "extends"))
    (heritageElement r sc)

end Grammar
end Script
end ComponentLoader
