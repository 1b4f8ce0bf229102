import ComponentLoader.Text.Basic

/-
  This file defines the arguments of the command line and
  how they are read.

  An argument that starts with two hyphens is a flag or an
  option, one that starts with one hyphen is a row of
  short flags, and anything else is a path or the value of
  the option before it.  After `--` there are only paths.
  An option is settled when the next argument begins, so
  its faults are reported there.

  Key definitions include:
    * `CommandLine.Flag`
    * `CommandLine.Setting`
    * `CommandLine.Arguments`
    * `CommandLine.UsageError`
    * `CommandLine.Reading`
    * `CommandLine.Arguments.parse`
-/

namespace ComponentLoader
namespace CommandLine

------------------------------------------------------------
-- Flags And Options
------------------------------------------------------------

/- The arguments without a value. -/
inductive Flag where
  | production
  | noHotReload
  | verbose
  | help
  | version
  deriving DecidableEq

/- The arguments with a value. -/
inductive Setting where
  | root
  | target
  | decoratorName
  | templateName
  | stylesName
  | config
  | outDir
  | request
  deriving DecidableEq

/- A flag or an option. -/
inductive Switch where
  | flag (flag : Flag)
  | setting (setting : Setting)
  deriving DecidableEq

/- The long names of flags and options. -/
def longNames : List (Text × Switch) :=
  [("root".toList, .setting .root),
    ("target".toList, .setting .target),
    ("production".toList, .flag .production),
    ("no-hot-reload".toList, .flag .noHotReload),
    ("decorator-name".toList, .setting .decoratorName),
    ("template-param".toList, .setting .templateName),
    ("styles-param".toList, .setting .stylesName),
    ("config".toList, .setting .config),
    ("out-dir".toList, .setting .outDir),
    ("request".toList, .setting .request),
    ("verbose".toList, .flag .verbose),
    ("help".toList, .flag .help),
    ("version".toList, .flag .version)]

/- The flag or option of a long name. -/
def ofLongName?
    (name : Text) : Option Switch :=
  (longNames.find? fun entry => entry.1 == name).map
    Prod.snd

/- The flag of a letter. -/
def ofLetter? : Char → Option Flag
  | 'v' => some .verbose
  | 'h' => some .help
  | 'V' => some .version
  | _ => none

------------------------------------------------------------
-- Arguments
------------------------------------------------------------

/- Why arguments are not taken. -/
inductive UsageError where
  /- No path is given. -/
  | missingPaths
  /- There is no such flag or option. -/
  | unknown
  /- An option has no value. -/
  | missingValue
  /- A flag has a value. -/
  | unneededValue
  /- A flag or option is given twice. -/
  | repeated
  /- Help is asked for. -/
  | help
  /- The version is asked for. -/
  | version
  deriving DecidableEq

/- What the command line asks for. -/
structure Arguments where
  /- The files and directories to work on. -/
  paths : List Text := []
  /- The directory that short paths start from. -/
  root : Option Text := none
  /- What the build is for. -/
  target : Option Text := none
  production : Bool := false
  noHotReload : Bool := false
  decoratorName : Option Text := none
  templateName : Option Text := none
  stylesName : Option Text := none
  /- The file with options. -/
  config : Option Text := none
  /- The directory to write to. -/
  outDir : Option Text := none
  /- What stands before a short path in a request. -/
  request : Option Text := none
  /- How much is logged. -/
  verbose : Nat := 0
  deriving DecidableEq, Inhabited

namespace Arguments

/- The value of an option. -/
def get?
    (a : Arguments) : Setting → Option Text
  | .root => a.root
  | .target => a.target
  | .decoratorName => a.decoratorName
  | .templateName => a.templateName
  | .stylesName => a.stylesName
  | .config => a.config
  | .outDir => a.outDir
  | .request => a.request

/- Arguments with a value for an option. -/
def set
    (a : Arguments)
    (value : Text) : Setting → Arguments
  | .root => { a with root := some value }
  | .target => { a with target := some value }
  | .decoratorName => { a with decoratorName := some value }
  | .templateName => { a with templateName := some value }
  | .stylesName => { a with stylesName := some value }
  | .config => { a with config := some value }
  | .outDir => { a with outDir := some value }
  | .request => { a with request := some value }

/- Give an option its value, which it must not have yet. -/
def setOnce
    (a : Arguments)
    (setting : Setting)
    (value : Text) : Except UsageError Arguments :=
  match a.get? setting with
  | some _ => .error .repeated
  | none => .ok (a.set value setting)

/- The greatest number of times that verbosity counts. -/
def mostVerbose : Nat :=
  255

/- Raise a flag; only verbosity may be raised again. -/
def raise
    (a : Arguments) : Flag → Except UsageError Arguments
  | .production =>
      if a.production then
        .error .repeated
      else
        .ok { a with production := true }
  | .noHotReload =>
      if a.noHotReload then
        .error .repeated
      else
        .ok { a with noHotReload := true }
  | .verbose =>
      .ok { a with verbose := min (a.verbose + 1) mostVerbose }
  | .help => .error .help
  | .version => .error .version

/- The start of requests; by default, the root. -/
def requestStart
    (a : Arguments) : Text :=
  a.request.getD "./".toList

end Arguments

------------------------------------------------------------
-- Reading
------------------------------------------------------------

/- Arguments read so far, and the last option. -/
structure Reading where
  arguments : Arguments
  /- An option that is not settled, with its value. -/
  pending : Option (Setting × Option Text)

namespace Reading

/- Settle the last option. -/
def settle
    (r : Reading) : Except UsageError Arguments :=
  match r.pending with
  | none => .ok r.arguments
  | some (_, none) => .error .missingValue
  | some (setting, some value) =>
      r.arguments.setOnce setting value

/- Settle the last option and go on with a change. -/
def change
    (r : Reading)
    (f : Arguments → Except UsageError Arguments) :
    Except UsageError Reading :=
  match r.settle with
  | .error e => .error e
  | .ok a =>
      match f a with
      | .error e => .error e
      | .ok a' => .ok { arguments := a', pending := none }

/- Settle the last option and add a path. -/
def addPath
    (r : Reading)
    (path : Text) : Except UsageError Reading :=
  r.change fun a => .ok { a with paths := a.paths ++ [path] }

/- Settle the last option and begin another one. -/
def begin
    (r : Reading)
    (setting : Setting) : Except UsageError Reading :=
  match r.settle with
  | .error e => .error e
  | .ok a =>
      .ok { arguments := a, pending := some (setting, none) }

/- A long name with the value attached to it, if any. -/
def splitLong
    (long : Text) : Text × Option Text :=
  match Text.splitOnce '=' long with
  | some (name, value) => (name, some value)
  | none => (long, none)

/- A flag or an option by its long name. -/
def readLong
    (r : Reading)
    (long : Text) : Except UsageError Reading :=
  let (name, value) := splitLong long
  match ofLongName? name, value with
  | none, _ => .error .unknown
  | some (.flag _), some _ => .error .unneededValue
  | some (.flag flag), none => r.change fun a => a.raise flag
  | some (.setting setting), some value =>
      r.change fun a => a.setOnce setting value
  | some (.setting setting), none => r.begin setting

/- Short flags in a row. -/
def readLetters
    (r : Reading) : Text → Except UsageError Reading
  | [] => .ok r
  | c :: cs =>
      match ofLetter? c with
      | none => .error .unknown
      | some flag =>
          match r.change fun a => a.raise flag with
          | .error e => .error e
          | .ok r' => readLetters r' cs

/- A path, or the value of the option before it. -/
def readValue
    (r : Reading)
    (value : Text) : Except UsageError Reading :=
  match r.pending with
  | some (setting, none) =>
      .ok { r with pending := some (setting, some value) }
  | _ => r.addPath value

/- One argument before `--`. -/
def readOne
    (r : Reading) : Text → Except UsageError Reading
  | '-' :: '-' :: long => r.readLong long
  | '-' :: c :: cs => r.readLetters (c :: cs)
  | value => r.readValue value

/- Paths after `--`. -/
def readPaths
    (r : Reading) : List Text → Except UsageError Reading
  | [] => .ok r
  | path :: paths =>
      match r.addPath path with
      | .error e => .error e
      | .ok r' => readPaths r' paths

/- Arguments one after another. -/
def readAll
    (r : Reading) : List Text → Except UsageError Reading
  | [] => .ok r
  | arg :: args =>
      if arg = ['-', '-'] then
        r.readPaths args
      else
        match r.readOne arg with
        | .error e => .error e
        | .ok r' => readAll r' args

end Reading

/- What arguments ask for; they must name some path. -/
def Arguments.parse
    (args : List Text) : Except UsageError Arguments :=
  let start : Reading := { arguments := {}, pending := none }
  match start.readAll args with
  | .error e => .error e
  | .ok r =>
      match r.settle with
      | .error e => .error e
      | .ok a =>
          if a.paths.isEmpty then
            .error .missingPaths
          else
            .ok a

end CommandLine
end ComponentLoader
