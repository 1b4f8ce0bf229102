import ComponentLoader.CommandLine.Arguments
import ComponentLoader.Files.Listing
import ComponentLoader.Files.Write
import ComponentLoader.Loader

/-
  This file defines a run of the command line over a store
  of files.

  All files are read and transformed before the first one
  is written, so what a run writes never changes what it
  reads.  A file that fails is reported and counted, and
  the others go on; but a file on which the loader aborts
  takes the run with it, before anything is written.

  Key definitions include:
    * `CommandLine.RunError`
    * `CommandLine.FileError`
    * `CommandLine.Report`
    * `CommandLine.collect`
    * `CommandLine.transformFile`
    * `CommandLine.emit`
    * `CommandLine.run`
-/

namespace ComponentLoader
namespace CommandLine

open Files (Store Tree)

------------------------------------------------------------
-- Errors
------------------------------------------------------------

/- Why a run does not start. -/
inductive RunError where
  /- The file with options cannot be read. -/
  | unreadableOptions (path : Text)
  /- The file with options holds none. -/
  | malformedOptions (path : Text)
  /- The options are unusable. -/
  | options (fault : Options.Fault)
  /- A path leads nowhere. -/
  | noSuchPath (path : Text)

/- The text of an error. -/
def RunError.message : RunError → Text
  | unreadableOptions path =>
      "failed to read options file ".toList ++ path
  | malformedOptions path =>
      "invalid options file ".toList ++ path
  | options fault => fault.message
  | noSuchPath path =>
      "no such file or directory: ".toList ++ path

/- Why a file fails. -/
inductive FileError where
  /- It cannot be read. -/
  | unreadable (path : Text)
  /- It is refused. -/
  | refused (failure : Loader.Failure)
  /- Its result cannot be written. -/
  | unwritable (path : Text)

/- The text of an error, without its cause. -/
def FileError.message : FileError → Text
  | unreadable path => "failed to read ".toList ++ path
  | refused (.malformed path _) =>
      "failed to parse ".toList ++ path
  | refused (.options fault) => fault.message
  | unwritable path => "failed to write ".toList ++ path

------------------------------------------------------------
-- Options
------------------------------------------------------------

/- The options in a file, if one is given. -/
def optionsFile
    (s : Store) : Option Text → Except RunError Options
  | none => .ok {}
  | some path =>
      match s.read? path with
      | none => .error (.unreadableOptions path)
      | some text =>
          match Options.parse? text with
          | none => .error (.malformedOptions path)
          | some o => .ok o

/- Options with what the arguments override. -/
def override
    (a : Arguments)
    (o : Options) : Options :=
  { production := a.production || o.production
    decoratorName := a.decoratorName.getD o.decoratorName
    templateName := a.templateName.getD o.templateName
    stylesName := a.stylesName.getD o.stylesName
    hotReload := !a.noHotReload && o.hotReload }

/- The options of a run, which have to be usable. -/
def resolveOptions
    (s : Store)
    (a : Arguments) : Except RunError Options :=
  match optionsFile s a.config with
  | .error e => .error e
  | .ok o =>
      match (override a o).fault? with
      | some fault => .error (.options fault)
      | none => .ok (override a o)

------------------------------------------------------------
-- Files To Work On
------------------------------------------------------------

/- The extensions of files that are found. -/
def sourceExtensions : List Text :=
  ["ts", "tsx", "js", "jsx", "mjs"].map String.toList

/- The directories that are passed over. -/
def skippedName : Text :=
  "node_modules".toList

/- Whether names below a directory lead to a source. -/
def isSource
    (names : List Text) : Bool :=
  !names.contains skippedName &&
    match names.getLast? with
    | some name =>
        (Path.extension? name).any sourceExtensions.contains
    | none => false

/- The path below a directory that names lead to. -/
def pathBelow
    (dir : Text)
    (names : List Text) : Text :=
  names.foldl Path.join dir

/-
  The files that a path stands for: itself if it is one,
  or the sources below it.
-/
def collectPath
    (s : Store)
    (path : Text) : Except RunError (List Text) :=
  match s.find? path with
  | some (.file _) => .ok [path]
  | some (.dir children) =>
      .ok (((Tree.dir children).listing.filter isSource).map
        (pathBelow path))
  | none => .error (.noSuchPath path)

/- The files that paths stand for, in order. -/
def collect
    (s : Store) : List Text → Except RunError (List Text)
  | [] => .ok []
  | path :: paths =>
      match collectPath s path with
      | .error e => .error e
      | .ok files =>
          match collect s paths with
          | .error e => .error e
          | .ok more => .ok (files ++ more)

------------------------------------------------------------
-- One File
------------------------------------------------------------

/- What is fixed for all files of a run. -/
structure Plan where
  root : Text
  options : Options
  target : Option Text
  requestStart : Text
  outDir : Option Text
  /- Whether a printed file is headed by its path. -/
  headed : Bool

/- What the build says about a file. -/
def Plan.context
    (p : Plan)
    (path : Text) : Context :=
  let base := { Context.ofPath path with root := p.root }
  { base with
    target := p.target
    request := p.requestStart ++ base.shortPath }

/- The code of a file, and whether it has changed. -/
structure Output where
  code : Text
  changed : Bool

/-
  A file read and transformed; nothing, if the loader is
  aborted on it.
-/
def transformFile
    (s : Store)
    (p : Plan)
    (path : Text) : Option (Except FileError Output) :=
  match s.read? path with
  | none => some (.error (.unreadable path))
  | some source =>
      match
        Loader.transform source (p.context path) p.options
      with
      | none => none
      | some (.error failure) =>
          some (.error (.refused failure))
      | some (.ok result) =>
          some
            (.ok
              { code := result.code
                changed := result.code != source })

/-
  Files transformed, each with its path; nothing, if the
  loader is aborted on one of them.
-/
def transformAll
    (s : Store)
    (p : Plan) :
    List Text → Option (List (Text × Except FileError Output))
  | [] => some []
  | path :: paths =>
      match transformFile s p path, transformAll s p paths with
      | some result, some results =>
          some ((path, result) :: results)
      | _, _ => none

------------------------------------------------------------
-- Results
------------------------------------------------------------

/- What a run has done. -/
structure Report where
  store : Store
  /- What was printed. -/
  printed : Text
  /- The number of files. -/
  files : Nat
  /- The number of those emitted with other code. -/
  changed : Nat
  /- Why files failed, in order. -/
  failures : List FileError

/- A report before the first file. -/
def Report.start
    (s : Store) : Report :=
  { store := s
    printed := []
    files := 0
    changed := 0
    failures := [] }

/- A file as it is printed. -/
def printedFile
    (p : Plan)
    (path code : Text) : Text :=
  (if p.headed then
      "// ".toList ++ path ++ ['\n']
    else
      []) ++
    Loader.endLine code

/-
  Where a file is written to: at its place below the root,
  or under its name alone if it is not below the root.
-/
def targetPath
    (p : Plan)
    (outDir path : Text) : Text :=
  Path.join outDir
    (match Path.relative? p.root path with
    | some relative => relative
    | none => (Path.fileName? path).getD path)

/- Print or write the code of a file. -/
def emit
    (p : Plan)
    (path : Text)
    (output : Output)
    (r : Report) : Report :=
  let changed :=
    r.changed + if output.changed then 1 else 0
  match p.outDir with
  | none =>
      { r with
        printed := r.printed ++ printedFile p path output.code
        changed := changed }
  | some outDir =>
      let target := targetPath p outDir path
      match r.store.save target output.code with
      | (store, true) =>
          { r with store := store, changed := changed }
      | (store, false) =>
          { r with
            store := store
            failures := r.failures ++ [.unwritable target] }

/- The report after one more file. -/
def emitResult
    (p : Plan)
    (r : Report)
    (result : Text × Except FileError Output) : Report :=
  let counted := { r with files := r.files + 1 }
  match result.2 with
  | .ok output => emit p result.1 output counted
  | .error e =>
      { counted with failures := r.failures ++ [e] }

------------------------------------------------------------
-- Runs
------------------------------------------------------------

/- The written path of the current directory. -/
def currentPath
    (s : Store) : Text :=
  ['/'] ++ Text.join ['/'] s.current

/- A path made absolute. -/
def absolutePath
    (s : Store)
    (path : Text) : Text :=
  Path.join (currentPath s) path

/- The root of a run; by default, the current directory. -/
def rootPath
    (s : Store) : Option Text → Text
  | some root => absolutePath s root
  | none => currentPath s

/- What is fixed for all files of a run. -/
def planOf
    (s : Store)
    (a : Arguments)
    (options : Options)
    (count : Nat) : Plan :=
  { root := rootPath s a.root
    options := options
    target := a.target
    requestStart := a.requestStart
    outDir := a.outDir
    headed := a.outDir.isNone && 1 < count }

/-
  A run over a store, or why it does not start; nothing,
  if it is aborted.
-/
def run
    (s : Store)
    (a : Arguments) : Option (Except RunError Report) :=
  match resolveOptions s a with
  | .error e => some (.error e)
  | .ok options =>
      match collect s (a.paths.map (absolutePath s)) with
      | .error e => some (.error e)
      | .ok files =>
          let plan := planOf s a options files.length
          (transformAll s plan files).map fun results =>
            .ok (results.foldl (emitResult plan) (.start s))

end CommandLine
end ComponentLoader
