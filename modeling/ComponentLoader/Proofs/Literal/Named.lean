import Mathlib.Tactic
import ComponentLoader.Component.Fragments
import ComponentLoader.Proofs.Dict

/-
  What is read off a literal under a name: the value of
  the last entry with this name, whatever its kind.

  Main declarations:
    * `Literal.lastNamed?`
    * `Value.ofEntry`
    * `Value.get?_fields`
    * `Literal.get?_named`
    * `Component.Names.Avoid`
    * `Component.Params.template_eq`
    * `Component.Params.styles_eq`
    * `Component.Params.template_ofLiteral`
    * `Component.Params.styles_ofLiteral`
-/

------------------------------------------------------------
-- The Last Entry With A Name
------------------------------------------------------------

namespace ComponentLoader

/- The last entry of a literal with a name. -/
def Literal.lastNamed?
    (l : Literal)
    (name : Text) : Option Script.Entry :=
  l.entries.reverse.find? fun e => e.name? == some name

namespace Value

/- The value of an entry; one without a pair is kept. -/
def ofEntry : Script.Entry → Value
  | .pair _ _ value => .ofExpr value
  | entry => .prop entry

/- An entry has at most one name, and then its value. -/
theorem get?_field
    (entry : Script.Entry)
    (name : Text) :
    Dict.get? (field entry).reverse name =
      if entry.name? == some name then
        some (ofEntry entry)
      else
        none := by
  cases entry with
  | pair span key value =>
      cases key with
      | none => simp [field, Script.Entry.name?, Dict.get?]
      | some key =>
          simp [field, Script.Entry.name?, Dict.get?, ofEntry]
  | other span key role =>
      cases key with
      | none => simp [field, Script.Entry.name?, Dict.get?]
      | some key =>
          simp [field, Script.Entry.name?, Dict.get?, ofEntry]

/- Of the values of a name the last one counts. -/
theorem get?_fields
    (entries : List Script.Entry)
    (name : Text) :
    Dict.get? (fields entries).reverse name =
      (entries.reverse.find? fun e =>
        e.name? == some name).map ofEntry := by
  induction entries with
  | nil => rfl
  | cons entry rest ih =>
      rw [fields, List.reverse_append, Dict.get?_append, ih,
        get?_field, List.reverse_cons, List.find?_append,
        Option.map_or]
      congr 1
      by_cases hName : (entry.name? == some name) = true
      · rw [if_pos hName, List.find?_singleton,
          if_pos hName]
        rfl
      · rw [if_neg hName, List.find?_singleton,
          if_neg hName]
        rfl

end Value

/- A name that is asked for has its last value. -/
theorem Literal.get?_named
    (l : Literal)
    {wanted : Text → Bool}
    {name : Text}
    (hWanted : wanted name = true) :
    (l.named wanted).get? name =
      (l.lastNamed? name).map Value.ofEntry := by
  unfold named lastNamed?
  rw [Dict.get?_ofEntries, ← List.filter_reverse,
    Dict.get?_filter hWanted, Value.get?_fields]

------------------------------------------------------------
-- Parameters Of Components
------------------------------------------------------------

namespace Component

/-
  Names for the template and the styles that differ from
  each other and from names that are taken.
-/
structure Names.Avoid
    (names : Names)
    (taken : List Text) : Prop where
  distinct : names.template ≠ names.styles
  template : names.template ∉ taken
  styles : names.styles ∉ taken

/- The names that are read before the two of a component. -/
def markNames : List Text :=
  [scopeIdName, compiledName]

namespace Params

/-
  After the marks were read, the two of their names are
  gone, and of any other name that is asked for the last
  value is left.
-/
theorem get?_unmarked
    (l : Literal)
    {wanted : Text → Bool}
    {name : Text}
    (hWanted : wanted name = true) :
    (((l.named wanted).erase scopeIdName).erase
        compiledName).get? name =
      if name ∈ markNames then
        none
      else
        (l.lastNamed? name).map Value.ofEntry := by
  have hDistinct : (Dict.keys (l.named wanted)).Nodup :=
    Dict.nodup_keys_ofEntries _
  rw [Dict.get?_erase
      (Dict.nodup_keys_erase hDistinct scopeIdName),
    Dict.get?_erase hDistinct, l.get?_named hWanted]
  by_cases hCompiled : name = compiledName
  · simp [markNames, hCompiled]
  · by_cases hScope : name = scopeIdName
    · simp [markNames, hScope]
    · simp [markNames, hCompiled, hScope]

/- The template is read unless its name is that of a mark. -/
theorem template_eq
    (l : Literal)
    (names : Names) :
    (ofLiteral l names).template =
      if names.template ∈ markNames then
        none
      else
        (l.lastNamed? names.template).map
          Value.ofEntry := by
  unfold ofLiteral
  exact get?_unmarked l (by simp)

/- So are the styles, which have another name. -/
theorem styles_eq
    (l : Literal)
    {names : Names}
    (hNames : names.template ≠ names.styles) :
    (ofLiteral l names).styles =
      if names.styles ∈ markNames then
        none
      else
        (l.lastNamed? names.styles).map
          Value.ofEntry := by
  unfold ofLiteral
  simp only
  rw [Dict.get?_erase_other hNames.symm]
  exact get?_unmarked l (by simp)

variable {names : Names}

/- The template is the last entry with its name. -/
theorem template_ofLiteral
    (hNames : names.Avoid markNames)
    (l : Literal) :
    (ofLiteral l names).template =
      (l.lastNamed? names.template).map Value.ofEntry := by
  rw [template_eq, if_neg hNames.template]

/- The styles are the last entry with their name. -/
theorem styles_ofLiteral
    (hNames : names.Avoid markNames)
    (l : Literal) :
    (ofLiteral l names).styles =
      (l.lastNamed? names.styles).map Value.ofEntry := by
  rw [styles_eq l hNames.distinct, if_neg hNames.styles]

end Params

end Component

end ComponentLoader
