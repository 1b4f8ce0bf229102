import ComponentLoader.Component.Basic
import ComponentLoader.Digest.Short
import ComponentLoader.Script.Parser

/-
  This file defines the loader: it compiles the components
  of a file and appends code for hot reload.

  A file that does not mention the decorator is handed
  back as it is, and is not parsed.  Any other file is
  compiled as a whole or refused; but where an edit would
  cut a character the loader is aborted, and there is no
  outcome.

  Key definitions include:
    * `Loader.Failure`
    * `Loader.Result`
    * `Loader.compile?`
    * `Loader.transform`
-/

namespace ComponentLoader
namespace Loader

------------------------------------------------------------
-- Outcomes
------------------------------------------------------------

/- Why a file is refused. -/
inductive Failure where
  /- The options are unusable. -/
  | options (fault : Options.Fault)
  /- The file is no script. -/
  | malformed (path : Text) (error : Script.SyntaxError)

/- A compiled file. -/
structure Result where
  /- The code. -/
  code : Text
  /- The components of the file. -/
  table : HotReload.Table

/- A file handed back as it is. -/
def unchanged
    (source : Text) : Result :=
  { code := source, table := [] }

------------------------------------------------------------
-- Byte Order Marks
------------------------------------------------------------

/- A text without a byte order mark, and the mark. -/
def splitMark : Text → Text × Text
  | [] => ([], [])
  | c :: cs =>
      if c = Text.byteOrderMark then
        ([c], cs)
      else
        ([], c :: cs)

------------------------------------------------------------
-- Compilation
------------------------------------------------------------

/- The table of components. -/
def tableOf
    (f : File)
    (components : List Component) : HotReload.Table :=
  Dict.ofEntries
    (components.map fun c => (c.name f, c.record f))

/- The edits of components, one after another. -/
def editsOf?
    (f : File) : List Component → Option (List Edit)
  | [] => some []
  | c :: components =>
      match c.edits? f, editsOf? f components with
      | some edits, some more => some (edits ++ more)
      | _, _ => none

/- Code with a line end after it, if it has none. -/
def endLine
    (code : Text) : Text :=
  if Text.endsWith '\n' code then code else code ++ ['\n']

/- Code with the code for hot reload after it. -/
def withGlue
    (settings : Settings)
    (table : HotReload.Table)
    (code : Text) : Text :=
  if settings.emitsHotReload && !table.isEmpty then
    endLine code ++ HotReload.glue table
  else
    code

/- A file with its components compiled. -/
def compile?
    (f : File)
    (mark : Text)
    (m : Script.Module) : Option Result :=
  let components := Component.ofCandidates
    (Candidate.ofModule f.settings.decoratorName m)
  let table := tableOf f components
  match editsOf? f components with
  | none => none
  | some edits =>
      (Edit.applyAll? f.source.text edits).map fun code =>
        { code := withGlue f.settings table (mark ++ code)
          table := table }

/- What the components of a file have in common. -/
def fileOf
    (context : Context)
    (settings : Settings)
    (body : Text) : File :=
  { source := Source.ofText body
    settings := settings
    digest :=
      Digest.file settings.shortPath body settings.production
    moduleDigest := Digest.module context.request }

/-
  A file compiled after it has been parsed, or why it is
  refused; nothing, if the loader is aborted.
-/
def parsed
    (source : Text)
    (context : Context)
    (settings : Settings) :
    Option (Except Failure Result) :=
  let (mark, body) := splitMark source
  match Script.parse (Dialect.ofPath context.path) body with
  | .error e => some (.error (.malformed context.path e))
  | .ok m =>
      (compile? (fileOf context settings body) mark m).map
        .ok

/-
  A file compiled, or why it is refused; nothing, if the
  loader is aborted.
-/
def transform
    (source : Text)
    (context : Context)
    (options : Options) : Option (Except Failure Result) :=
  match options.fault? with
  | some fault => some (.error (.options fault))
  | none =>
      let settings := Settings.resolve context options
      if Text.occursIn settings.decoratorName source then
        parsed source context settings
      else
        some (.ok (unchanged source))

end Loader
end ComponentLoader
