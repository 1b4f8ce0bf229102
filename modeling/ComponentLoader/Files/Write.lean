import ComponentLoader.Files.Tree

/-
  This file defines how directories and files are made.

  Key definitions include:
    * `Files.Store.makeDir`
    * `Files.Store.makeDirs`
    * `Files.Store.write`
    * `Files.Store.save`
-/

namespace ComponentLoader
namespace Files
namespace Store

------------------------------------------------------------
-- Places For New Things
------------------------------------------------------------

/- The place of a thing that may not exist yet. -/
structure Slot where
  /- The directory that it is in. -/
  parent : List Text
  /- Its name there. -/
  name : Text

/- What stands at a slot. -/
def Slot.content?
    (slot : Slot)
    (s : Store) : Option Tree :=
  s.root.at? (slot.parent ++ [slot.name])

/-
  The slot of the last of some pieces, the last first.  A
  piece that only moves around names no slot.
-/
def slotOf
    (s : Store)
    (origin : List Text) :
    List Text → Except Fault Slot
  | [] => .error .blocked
  | last :: before =>
      match s.walk origin before.reverse with
      | .error fault => .error fault
      | .ok parent =>
          match s.root.at? parent with
          | some (.dir _) =>
              if Path.isSkipped last || last = ['.', '.'] then
                .error .blocked
              else
                .ok { parent := parent, name := last }
          | _ => .error .blocked

/- A store with something put into a slot. -/
def putSlot
    (s : Store)
    (slot : Slot)
    (new : Tree) : Store :=
  { s with
    root := s.root.put (slot.parent ++ [slot.name]) new }

------------------------------------------------------------
-- Directories
------------------------------------------------------------

/-
  Make a directory in one that exists.  Slashes at the end
  of its path do not matter.
-/
def makeDir
    (s : Store)
    (path : Text) : Except Fault Store :=
  if path.isEmpty then
    .error .missing
  else
    let pieces := (Text.splitAll '/' path).reverse.dropWhile
      fun piece => piece.isEmpty
    match s.slotOf (s.start path) pieces with
    | .error fault => .error fault
    | .ok slot =>
        match slot.content? s with
        | some _ => .error .blocked
        | none => .ok (s.putSlot slot (.dir []))

/- Make a directory, unless the path leads to one. -/
def ensureDir
    (s : Store)
    (path : Text) : Except Fault Store :=
  match s.makeDir path with
  | .ok s' => .ok s'
  | .error fault =>
      if s.isDir path then .ok s else .error fault

/-
  Make a directory and those above it that are missing,
  going up at most `fuel` times.  What was made on the way
  stays, also if the rest fails.
-/
def makeDirsUpTo :
    Nat → Store → Text → Store × Bool
  | 0, s, _ => (s, false)
  | fuel + 1, s, path =>
      if path.isEmpty then
        (s, true)
      else
        match s.ensureDir path with
        | .ok s' => (s', true)
        | .error .blocked => (s, false)
        | .error .missing =>
            match Path.parent? path with
            | none => (s, false)
            | some above =>
                let (s', made) := makeDirsUpTo fuel s above
                if made then
                  match s'.ensureDir path with
                  | .ok s'' => (s'', true)
                  | .error _ => (s', false)
                else
                  (s', false)

/- Make a directory and those above it that are missing. -/
def makeDirs
    (s : Store)
    (path : Text) : Store × Bool :=
  makeDirsUpTo (path.length + 1) s path

------------------------------------------------------------
-- Files
------------------------------------------------------------

/- Write a text to a file in an existing directory. -/
def write
    (s : Store)
    (path text : Text) : Except Fault Store :=
  if path.isEmpty then
    .error .missing
  else
    let pieces := (Text.splitAll '/' path).reverse
    match s.slotOf (s.start path) pieces with
    | .error fault => .error fault
    | .ok slot =>
        match slot.content? s with
        | some (.dir _) => .error .blocked
        | _ => .ok (s.putSlot slot (.file (some text)))

/- Make the directory of a file, if its path has one. -/
def makeParent
    (s : Store)
    (path : Text) : Store × Bool :=
  match Path.parent? path with
  | some above => s.makeDirs above
  | none => (s, true)

/- Write a text to a file, making its directory first. -/
def save
    (s : Store)
    (path text : Text) : Store × Bool :=
  let (s', made) := s.makeParent path
  if made then
    match s'.write path text with
    | .ok s'' => (s'', true)
    | .error _ => (s', false)
  else
    (s', false)

end Store
end Files
end ComponentLoader
