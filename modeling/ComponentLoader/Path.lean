import ComponentLoader.Text.Basic

/-
  This file defines paths as written texts and their
  components.

  A path is cut at slashes.  Empty pieces and dots between
  slashes are no components, but a root slash and a dot at
  the very start are; two dots stay as they are.

  Key definitions include:
    * `Path.Parts`
    * `Path.parts`
    * `Path.components`
    * `Path.isAbsolute`
    * `Path.join`
    * `Path.parent?`
    * `Path.fileName?`
    * `Path.extension?`
    * `Path.relative?`
-/

namespace ComponentLoader
namespace Path

------------------------------------------------------------
-- Parts Of A Written Path
------------------------------------------------------------

/-
  A path cut at slashes: the root slash or the dot at its
  start, if any, and the pieces of the rest.
-/
structure Parts where
  start : Text
  pieces : List Text

/- Whether a path starts with a slash. -/
def isAbsolute
    (path : Text) : Bool :=
  path.head? == some '/'

/- Whether a path starts with a component `.`. -/
def startsWithDot : Text → Bool
  | ['.'] => true
  | '.' :: '/' :: _ => true
  | _ => false

/- Cut a path into its parts. -/
def parts
    (path : Text) : Parts :=
  if isAbsolute path || startsWithDot path then
    { start := path.take 1
      pieces := Text.splitAll '/' (path.drop 1) }
  else
    { start := []
      pieces := Text.splitAll '/' path }

/- The written path of its parts. -/
def Parts.text
    (p : Parts) : Text :=
  p.start ++ Text.join ['/'] p.pieces

/- Whether a piece between slashes is no component. -/
def isSkipped
    (piece : Text) : Bool :=
  piece.isEmpty || piece == ['.']

/- The components of a path after its start. -/
def Parts.body
    (p : Parts) : List Text :=
  p.pieces.filter fun piece => !isSkipped piece

/- The components of a path. -/
def components
    (path : Text) : List Text :=
  let p := parts path
  if p.start.isEmpty then
    p.body
  else
    p.start :: p.body

/- Pieces without the skipped ones at the end. -/
def trimPieces
    (pieces : List Text) : List Text :=
  (pieces.reverse.dropWhile isSkipped).reverse

------------------------------------------------------------
-- Joining And Cutting
------------------------------------------------------------

/- A path below a directory, or itself if absolute. -/
def join
    (dir path : Text) : Text :=
  if isAbsolute path then
    path
  else if dir.isEmpty || Text.endsWith '/' dir then
    dir ++ path
  else
    dir ++ ['/'] ++ path

/- The path without its last component. -/
def parent?
    (path : Text) : Option Text :=
  let p := parts path
  match p.pieces.reverse.dropWhile isSkipped with
  | _ :: before =>
      some (Parts.text
        { p with
          pieces := (before.dropWhile isSkipped).reverse })
  | [] =>
      if p.start == ['.'] then some [] else none

/- The last component, unless it is a root or dots. -/
def fileName?
    (path : Text) : Option Text :=
  match (parts path).body.getLast? with
  | some name => if name == ['.', '.'] then none else some name
  | none => none

/- A file name cut at its last dot. -/
def splitExtension
    (name : Text) : Option Text :=
  match Text.splitOnce '.' name.reverse with
  | some (after, before) =>
      if before.isEmpty then none else some after.reverse
  | none => none

/-
  What follows the last dot of the file name, unless the
  dot is its first character.
-/
def extension?
    (path : Text) : Option Text :=
  (fileName? path).bind splitExtension

------------------------------------------------------------
-- Relative Paths
------------------------------------------------------------

/- Drop a number of components from pieces. -/
def dropPieces : Nat → List Text → List Text
  | _, [] => []
  | n, piece :: rest =>
      if isSkipped piece then
        dropPieces n rest
      else
        match n with
        | 0 => piece :: rest
        | n + 1 => dropPieces n rest

/- The components after those of a base. -/
def relativeComponents?
    (base path : Text) : Option (List Text) :=
  let dir := components base
  if dir.isPrefixOf (components path) then
    some ((components path).drop dir.length)
  else
    none

/-
  The written path below a base.  What is left keeps its
  spelling, apart from skipped pieces at its ends.
-/
def relative?
    (base path : Text) : Option Text :=
  let n := (components base).length
  let p := parts path
  match relativeComponents? base path with
  | none => none
  | some _ =>
      if n = 0 then
        some (Parts.text
          { p with pieces := trimPieces p.pieces })
      else
        let used := n - (if p.start.isEmpty then 0 else 1)
        some (Text.join ['/']
          (trimPieces (dropPieces used p.pieces)))

end Path
end ComponentLoader
