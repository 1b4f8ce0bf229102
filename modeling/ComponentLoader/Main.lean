import ComponentLoader.CommandLine.Run
import ComponentLoader.Text.Utf8

/-
  This file is the command line program.  It takes a copy
  of the files that the arguments lead to, runs over the
  copy, and carries out what the run has printed and
  written.

  Key definitions include:
    * `CommandLine.loadTree`
    * `CommandLine.loadStore`
    * `CommandLine.carryOut`
    * `main`
-/

namespace ComponentLoader
namespace CommandLine

open Files (Store Tree)

------------------------------------------------------------
-- Taking A Copy
------------------------------------------------------------

/- What stands at a path. -/
partial def loadTree
    (path : String) : IO Tree := do
  let real ← IO.FS.realPath path
  if ← real.isDir then
    let entries ← real.readDir
    let children ← entries.toList.mapM fun entry => do
      let name := entry.fileName
      return (name.toList, ← loadTree (path ++ "/" ++ name))
    return .dir children
  else
    let bytes ← IO.FS.readBinFile real
    return .file (Utf8.decode? bytes.toList)

/- The names that pieces of a path lead to. -/
def namesOf
    (pieces : List Text) : List Text :=
  pieces.foldl
    (fun names piece =>
      if Path.isSkipped piece then names
      else if piece = ['.', '.'] then names.dropLast
      else names ++ [piece])
    []

/- The directories on the way to a path. -/
def loadWay
    (root : Tree)
    (path : Text) : IO Tree := do
  let pieces := Text.splitAll '/' path
  let mut tree := root
  for count in List.range pieces.length do
    let way := pieces.take count
    let names := namesOf way
    let text := String.ofList (['/'] ++ Text.join ['/'] way)
    if (tree.at? names).isNone then
      try
        if ← (← IO.FS.realPath text).isDir then
          tree := tree.put names (.dir [])
      catch _ => pure ()
  return tree

/- A copy with what stands at a path added to it. -/
def loadPath
    (root : Tree)
    (path : Text) : IO Tree := do
  let tree ← loadWay root path
  try
    let found ← loadTree (String.ofList path)
    let names := namesOf (Text.splitAll '/' path)
    return tree.put names found
  catch _ =>
    return tree

/- The paths that arguments mention. -/
def Arguments.mentioned
    (a : Arguments) : List Text :=
  a.paths ++ a.config.toList ++ a.outDir.toList

/- A copy of the files that arguments lead to. -/
def loadStore
    (a : Arguments) : IO Store := do
  let cwd := (← IO.currentDir).toString.toList
  let current := namesOf (Text.splitAll '/' cwd)
  let start := Tree.put (.dir []) current (.dir [])
  let paths := a.mentioned.map (Path.join cwd)
  let root ← paths.foldlM loadPath start
  return { root := root, current := current }

------------------------------------------------------------
-- Carrying Out A Run
------------------------------------------------------------

/- The text of a file. -/
def contentAt
    (root : Tree)
    (names : List Text) : Option Text :=
  match root.at? names with
  | some (.file content) => content
  | _ => none

/- Write the files that a run has written. -/
def writeFiles
    (old new : Tree) : IO Unit := do
  for names in new.listing do
    match contentAt new names with
    | some text =>
        if contentAt old names ≠ some text then
          let dir := Text.join ['/'] names.dropLast
          let file := Text.join ['/'] names
          IO.FS.createDirAll (String.ofList ('/' :: dir))
          IO.FS.writeFile (String.ofList ('/' :: file))
            (String.ofList text)
    | none => pure ()

/- Print and write what a run has printed and written. -/
def carryOut
    (s : Store)
    (r : Report) : IO UInt32 := do
  IO.print (String.ofList r.printed)
  writeFiles s.root r.store.root
  for failure in r.failures do
    IO.eprintln ("Error: " ++ String.ofList failure.message)
  return if r.failures.isEmpty then 0 else 1

------------------------------------------------------------
-- Usage
------------------------------------------------------------

/- How the program is called. -/
def usage : String :=
  "Usage: component-loader [OPTIONS] <PATHS>..."

/- The text of a usage error. -/
def UsageError.message : UsageError → String
  | missingPaths => "no paths were given"
  | unknown => "unexpected argument"
  | missingValue => "an option has no value"
  | unneededValue => "a flag has a value"
  | repeated => "an argument is given more than once"
  | help => usage
  | version => "component-loader 0.1.0"

/- Report a usage error. -/
def reportUsage : UsageError → IO UInt32
  | .help => do
      IO.println (UsageError.message .help)
      return 0
  | .version => do
      IO.println (UsageError.message .version)
      return 0
  | e => do
      IO.eprintln ("error: " ++ e.message)
      IO.eprintln usage
      return 2

end CommandLine
end ComponentLoader

open ComponentLoader.CommandLine in
/- Run the command line. -/
def main
    (args : List String) : IO UInt32 := do
  match Arguments.parse (args.map String.toList) with
  | .error e => reportUsage e
  | .ok arguments =>
      let store ← loadStore arguments
      match run store arguments with
      | none =>
          IO.eprintln "aborted: an edit cuts a character"
          return 101
      | some (.error e) =>
          IO.eprintln ("Error: " ++ String.ofList e.message)
          return 1
      | some (.ok report) => carryOut store report
