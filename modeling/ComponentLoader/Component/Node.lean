import ComponentLoader.Text.Identifier
import ComponentLoader.Text.Quoted

/-
  This file defines the pieces of generated code and how
  they are written.  Code taken over from a source is kept
  as its exact text.

  Key definitions include:
    * `Node`
    * `PropNode`
    * `Node.render`
    * `PropNode.render`
    * `PropNode.name?`
-/

namespace ComponentLoader

------------------------------------------------------------
-- Nodes
------------------------------------------------------------

mutual

/- A generated expression. -/
inductive Node where
  /- A string literal. -/
  | str (value : Text)
  /- `true` or `false`. -/
  | bool (value : Bool)
  /- The import of a resource by its request. -/
  | resource (request : Text)
  /- An object literal. -/
  | object (props : List PropNode)
  /- An array literal. -/
  | array (items : List Node)
  /- A missing element of an array literal. -/
  | hole
  /- Code taken over from a source. -/
  | source (text : Text)

/- A generated entry of an object literal. -/
inductive PropNode where
  /- A key and its value. -/
  | keyValue (key : Text) (value : Node)
  /- A spread of a value. -/
  | spread (value : Node)
  /- An entry taken over from a source. -/
  | source (text : Text)

end

instance : Inhabited Node :=
  ⟨.hole⟩

/- The name of an entry, if it has a key. -/
def PropNode.name? : PropNode → Option Text
  | keyValue key _ => some key
  | spread _ => none
  | source _ => none

------------------------------------------------------------
-- Writing
------------------------------------------------------------

/- The function that imports a resource. -/
def importName : Text :=
  "require".toList

/- A key, quoted unless it is a plain identifier. -/
def renderKey
    (key : Text) : Text :=
  if Text.isPlainIdentifier key then
    key
  else
    Text.quote key

/- Whether the last node of an array is a hole. -/
def endsWithHole : List Node → Bool
  | [] => false
  | [.hole] => true
  | _ :: rest => endsWithHole rest

/- The import of a request. -/
def renderImport
    (request : Text) : Text :=
  importName ++ ['('] ++ Text.quote request ++ [')']

mutual

/-
  The code of an expression.  An array that ends with a
  hole gets a comma more, since a comma at the end of an
  array literal adds no element.
-/
def Node.render : Node → Text
  | .str value => Text.quote value
  | .bool true => "true".toList
  | .bool false => "false".toList
  | .resource request => renderImport request
  | .object props =>
      if props.isEmpty then
        ['{', '}']
      else
        ['{', ' '] ++ PropNode.renderAll props ++ [' ', '}']
  | .array items =>
      ['['] ++ Node.renderAll items ++
        (if endsWithHole items then [','] else []) ++ [']']
  | .hole => []
  | .source text => text
termination_by structural n => n

/- The codes of expressions with commas between them. -/
def Node.renderAll : List Node → Text
  | [] => []
  | [n] => n.render
  | n :: ns => n.render ++ [',', ' '] ++ Node.renderAll ns
termination_by structural ns => ns

/- The code of an entry. -/
def PropNode.render : PropNode → Text
  | .keyValue key value =>
      renderKey key ++ [':', ' '] ++ value.render
  | .spread value => ['.', '.', '.'] ++ value.render
  | .source text => text
termination_by structural p => p

/- The codes of entries with commas between them. -/
def PropNode.renderAll : List PropNode → Text
  | [] => []
  | [p] => p.render
  | p :: ps => p.render ++ [',', ' '] ++ PropNode.renderAll ps
termination_by structural ps => ps

end

end ComponentLoader
