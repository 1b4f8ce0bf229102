import ComponentLoader.Dict
import ComponentLoader.Path

/-
  This file defines trees of files and directories, and
  what a written path leads to in one.

  A file holds a text; one whose bytes are no text is kept
  without contents.  A path is walked piece by piece, so a
  path through something that is no directory, or that
  does not exist, leads nowhere, even if it goes back up.

  Key definitions include:
    * `Files.Tree`
    * `Files.Tree.at?`
    * `Files.Tree.put`
    * `Files.Store`
    * `Files.Store.locate`
    * `Files.Store.find?`
    * `Files.Store.read?`
-/

namespace ComponentLoader
namespace Files

------------------------------------------------------------
-- Trees
------------------------------------------------------------

/- A file or a directory. -/
inductive Tree where
  /- A file with its text. -/
  | file (content : Option Text)
  /- A directory with what is in it. -/
  | dir (children : List (Text × Tree))

instance : Inhabited Tree :=
  ⟨.dir []⟩

namespace Tree

/- Whether a tree is a file. -/
def isFile : Tree → Bool
  | file _ => true
  | dir _ => false

/- Whether a tree is a directory. -/
def isDir : Tree → Bool
  | file _ => false
  | dir _ => true

/- What a directory holds under a name. -/
def child? : Tree → Text → Option Tree
  | dir children, name => Dict.get? children name
  | file _, _ => none

/- What stands below a tree under names. -/
def at? : Tree → List Text → Option Tree
  | t, [] => some t
  | t, name :: names =>
      match t.child? name with
      | some below => at? below names
      | none => none

/- A tree with another one put under names. -/
def put : Tree → List Text → Tree → Tree
  | _, [], new => new
  | file content, _ :: _, _ => file content
  | dir children, name :: names, new =>
      dir (Dict.alter name
        (fun old => put (old.getD default) names new)
        children)

end Tree

------------------------------------------------------------
-- Stores
------------------------------------------------------------

/- All files, and the directory that is the current one. -/
structure Store where
  root : Tree
  /- The names that lead to the current directory. -/
  current : List Text

/- Why a path leads nowhere. -/
inductive Store.Fault where
  /- Something on the way does not exist. -/
  | missing
  /- Something on the way is no directory, or is in use. -/
  | blocked
  deriving DecidableEq

namespace Store

/- One piece of a path further from a place. -/
def step
    (s : Store)
    (place : List Text)
    (piece : Text) : Except Fault (List Text) :=
  match s.root.at? place with
  | none => .error .missing
  | some (.file _) => .error .blocked
  | some (.dir children) =>
      if Path.isSkipped piece then
        .ok place
      else if piece = ['.', '.'] then
        .ok place.dropLast
      else if Dict.contains children piece then
        .ok (place ++ [piece])
      else
        .error .missing

/- Pieces of a path further from a place. -/
def walk
    (s : Store) :
    List Text → List Text → Except Fault (List Text)
  | place, [] => .ok place
  | place, piece :: pieces =>
      match s.step place piece with
      | .ok next => walk s next pieces
      | .error fault => .error fault

/- The place where a path starts. -/
def start
    (s : Store)
    (path : Text) : List Text :=
  if Path.isAbsolute path then [] else s.current

/- The place that a path leads to. -/
def locate
    (s : Store)
    (path : Text) : Except Fault (List Text) :=
  if path.isEmpty then
    .error .missing
  else
    s.walk (s.start path) (Text.splitAll '/' path)

/- What a path leads to. -/
def find?
    (s : Store)
    (path : Text) : Option Tree :=
  match s.locate path with
  | .ok place => s.root.at? place
  | .error _ => none

/- Whether a path leads to a file. -/
def isFile
    (s : Store)
    (path : Text) : Bool :=
  (s.find? path).any Tree.isFile

/- Whether a path leads to a directory. -/
def isDir
    (s : Store)
    (path : Text) : Bool :=
  (s.find? path).any Tree.isDir

/- The text of the file that a path leads to. -/
def read?
    (s : Store)
    (path : Text) : Option Text :=
  match s.find? path with
  | some (.file content) => content
  | _ => none

end Store
end Files
end ComponentLoader
