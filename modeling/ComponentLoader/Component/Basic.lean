import ComponentLoader.Component.Candidate
import ComponentLoader.Component.Fragments
import ComponentLoader.Component.HotReload
import ComponentLoader.Edit
import ComponentLoader.Literal.Draft
import ComponentLoader.Settings.Context
import ComponentLoader.Text.Keyword

/-
  This file defines components: decorated classes with an
  object literal, and what is generated for them.

  Key definitions include:
    * `File`
    * `Component`
    * `Component.ofCandidate?`
    * `Component.scopeId`
    * `Component.name`
    * `Component.draft`
    * `Component.edits?`
    * `Component.record`
-/

namespace ComponentLoader

------------------------------------------------------------
-- Files
------------------------------------------------------------

/- What the components of a file have in common. -/
structure File where
  source : Source
  settings : Settings
  /- The digest of the file. -/
  digest : Text
  /- The digest of the request for the file. -/
  moduleDigest : Text

/- The entries that hold the template and the styles. -/
def File.names
    (f : File) : Component.Names :=
  { template := f.settings.templateName
    styles := f.settings.stylesName }

------------------------------------------------------------
-- Components
------------------------------------------------------------

/- A decorated class with an object literal. -/
structure Component where
  /- The number of decorated classes before it. -/
  ordinal : Nat
  candidate : Candidate
  literal : Literal

namespace Component

/- The component that a candidate is. -/
def ofCandidate?
    (numbered : Candidate × Nat) : Option Component :=
  numbered.1.call.literal?.map fun literal =>
    { ordinal := numbered.2
      candidate := numbered.1
      literal := literal }

/-
  The components among candidates.  A candidate that is no
  component still counts for those after it.
-/
def ofCandidates
    (candidates : List Candidate) : List Component :=
  candidates.zipIdx.filterMap ofCandidate?

/- The scope id of a component. -/
def scopeId
    (c : Component)
    (f : File) : Text :=
  f.digest ++ ['-'] ++ Text.ofNat c.ordinal

/- The id of a component's module. -/
def moduleId
    (c : Component)
    (f : File) : Text :=
  f.moduleDigest ++ ['-'] ++ Text.ofNat c.ordinal

/- The name that is given to a class without one. -/
def givenName
    (c : Component)
    (f : File) : Text :=
  "Component_".toList ++ f.digest ++ ['_'] ++
    Text.ofNat (c.ordinal + 1)

/- A name inside namespaces. -/
def qualified
    (scope : List Text)
    (name : Text) : Text :=
  let outer := Text.join ['.'] scope
  if outer.isEmpty then
    name
  else
    outer ++ ['.'] ++ name

/- The name that reaches a component from its module. -/
def name
    (c : Component)
    (f : File) : Text :=
  match c.candidate.name with
  | some n => qualified c.candidate.scope n
  | none => c.givenName f

------------------------------------------------------------
-- Generated Entries
------------------------------------------------------------

/- The entries generated from the literal. -/
def fragments
    (c : Component)
    (f : File) : Fragments :=
  Fragments.ofParams f.source (c.scopeId f) f.names
    (Params.ofLiteral c.literal f.names)

/- An entry with a string. -/
def stringSlot
    (name value : Text) : Text × PropNode :=
  (name, .keyValue name (.str value))

/- The entries that follow from the settings. -/
def settingSlots
    (c : Component)
    (f : File) : List (Text × PropNode) :=
  (if f.settings.server then
      [stringSlot moduleIdName (c.moduleId f)]
    else
      []) ++
    (if f.settings.production then
      []
    else
      [stringSlot fileName f.settings.shortPath])

/- All generated entries, with the names they replace. -/
def slots
    (c : Component)
    (f : File) : List (Text × PropNode) :=
  (c.fragments f).slots f.names ++ c.settingSlots f

/- The literal with its generated entries. -/
def draft
    (c : Component)
    (f : File) : Draft :=
  (c.slots f).foldl
    (fun d slot => d.replace slot.1 slot.2)
    (Draft.ofLiteral c.literal)

/- What hot reload needs to know. -/
def record
    (c : Component)
    (f : File) : HotReload.Record :=
  { scopeId := c.scopeId f
    template := (c.fragments f).templateRequest? }

------------------------------------------------------------
-- Edits
------------------------------------------------------------

/- The edit that replaces the literal, if it changes. -/
def literalEdit
    (c : Component)
    (f : File) : List Edit :=
  let draft := c.draft f
  if draft.modified then
    let range := f.source.range draft.literal.span
    [{ start := range.1
       stop := range.2
       text := draft.render f.source }]
  else
    []

/- Where the keyword of a class is looked for. -/
def keywordStart
    (c : Script.Class) : Nat :=
  (c.decorators.map fun d => d.hi).foldl max c.lo

/-
  The edit that names a class without a name, if there is
  a keyword to put the name after.  The text is searched
  from a position on, and there is no answer if this would
  cut a character.
-/
def nameEdit?
    (c : Component)
    (f : File) : Option (List Edit) :=
  let lo := f.source.offset (keywordStart c.candidate.decl)
  match f.source.text.splitAt? lo with
  | none => none
  | some (_, rest) =>
      match Text.findKeyword "class".toList rest with
      | some stop =>
          some
            [{ start := lo + stop
               stop := lo + stop
               text := ' ' :: c.name f }]
      | none => some []

/-
  The edits for a component.  A class without a name gets
  one only where hot reload has to reach it.
-/
def edits?
    (c : Component)
    (f : File) : Option (List Edit) :=
  if c.candidate.name.isNone &&
      f.settings.emitsHotReload then
    (c.nameEdit? f).map (c.literalEdit f ++ ·)
  else
    some (c.literalEdit f)

end Component
end ComponentLoader
