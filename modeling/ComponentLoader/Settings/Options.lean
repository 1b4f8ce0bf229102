import ComponentLoader.Json.Basic
import ComponentLoader.Text.Identifier
import ComponentLoader.Text.Shown

/-
  This file defines the options of the loader, the ways
  in which they can be unusable, and reading them from
  JSON.

  Key definitions include:
    * `Options`
    * `Options.Fault`
    * `Options.Fault.message`
    * `Options.fault?`
    * `Options.ofJson?`
    * `Options.parse?`
-/

namespace ComponentLoader

------------------------------------------------------------
-- Options
------------------------------------------------------------

/- What a user can choose for a build. -/
structure Options where
  /- No source paths, no hot reload, content digests. -/
  production : Bool := false
  /- The decorator that marks a component class. -/
  decoratorName : Text := "Component".toList
  /- The entry that holds the template. -/
  templateName : Text := "template".toList
  /- The entry that holds the styles. -/
  stylesName : Text := "styles".toList
  /- Append code for hot reload in development. -/
  hotReload : Bool := true
  deriving DecidableEq, Inhabited

namespace Options

------------------------------------------------------------
-- Faults
------------------------------------------------------------

/- Why options are unusable. -/
inductive Fault where
  /- The decorator name is no identifier. -/
  | decoratorName (name : Text)
  /- The name of the template entry is empty. -/
  | emptyTemplateName
  /- The name of the styles entry is empty. -/
  | emptyStylesName
  /- Template and styles would share an entry. -/
  | sameName (name : Text)
  deriving DecidableEq

/- The text of a fault. -/
def Fault.message : Fault → Text
  | decoratorName name =>
      "invalid loader options: decoratorName must be an identifier, got ".toList ++
        Text.shown name
  | emptyTemplateName =>
      "invalid loader options: templateParameterName must not be empty".toList
  | emptyStylesName =>
      "invalid loader options: stylesParameterName must not be empty".toList
  | sameName name =>
      "invalid loader options: templateParameterName and stylesParameterName are both ".toList ++
        Text.shown name

/- The first fault of options, if they have one. -/
def fault?
    (o : Options) : Option Fault :=
  if !Text.isPlainIdentifier o.decoratorName then
    some (.decoratorName o.decoratorName)
  else if o.templateName.isEmpty then
    some .emptyTemplateName
  else if o.stylesName.isEmpty then
    some .emptyStylesName
  else if o.templateName = o.stylesName then
    some (.sameName o.templateName)
  else
    none

------------------------------------------------------------
-- Reading
------------------------------------------------------------

/- The options that can be read, in their order. -/
inductive Field where
  | production
  | decoratorName
  | templateName
  | stylesName
  | hotReload
  deriving DecidableEq

namespace Field

/- All fields in order. -/
def all : List Field :=
  [production, decoratorName, templateName, stylesName,
    hotReload]

/- The name of a field in an options object. -/
def name : Field → Text
  | production => "production".toList
  | decoratorName => "decoratorName".toList
  | templateName => "templateParameterName".toList
  | stylesName => "stylesParameterName".toList
  | hotReload => "hotReload".toList

/- The field of a name. -/
def ofName?
    (n : Text) : Option Field :=
  all.find? fun f => f.name == n

end Field

/- Options with one field read from a value. -/
def set?
    (o : Options) : Field → Json → Option Options
  | .production, .bool b => some { o with production := b }
  | .decoratorName, .string (some t) =>
      some { o with decoratorName := t }
  | .templateName, .string (some t) =>
      some { o with templateName := t }
  | .stylesName, .string (some t) =>
      some { o with stylesName := t }
  | .hotReload, .bool b => some { o with hotReload := b }
  | _, _ => none

/-
  Options with the members of an object.  Unknown names
  are ignored; a known one must not come twice.
-/
def readMembers
    (o : Options)
    (seen : List Field) :
    List (Text × Json) → Option Options
  | [] => some o
  | (name, value) :: rest =>
      match Field.ofName? name with
      | none => readMembers o seen rest
      | some field =>
          if seen.contains field then
            none
          else
            match o.set? field value with
            | none => none
            | some o => readMembers o (field :: seen) rest

/- Options with the items of an array, field by field. -/
def readItems
    (o : Options) :
    List Field → List Json → Option Options
  | _, [] => some o
  | [], _ :: _ => none
  | field :: fields, value :: rest =>
      match o.set? field value with
      | none => none
      | some o => readItems o fields rest

/- Options from a JSON value; missing ones are default. -/
def ofJson? : Json → Option Options
  | .object members => readMembers {} [] members
  | .array items => readItems {} Field.all items
  | _ => none

/- Options from the text of a JSON document. -/
def parse?
    (t : Text) : Option Options :=
  (Json.parse? t).bind ofJson?

end Options
end ComponentLoader
