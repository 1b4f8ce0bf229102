import Mathlib.Tactic
import ComponentLoader.Proofs.Component.Requests
import ComponentLoader.Proofs.Literal.Draft

/-
  What identifies a component in the things generated for
  it: the entries of its literal, its requests and what is
  recorded for hot reload.

  Main declarations:
    * `Component.added_mem_draft`
    * `Component.Identified`
    * `Component.identified`
    * `Component.Named`
    * `Component.named`
-/

------------------------------------------------------------
-- Entries Of The Draft
------------------------------------------------------------

namespace ComponentLoader

namespace Draft

/- An added entry stays if others are replaced. -/
theorem added_mem_foldl_replace
    {prop : PropNode}
    (slots : List (Text × PropNode))
    {d : Draft}
    (hMem : .added prop ∈ d.parts)
    (hOther : ∀ slot ∈ slots, prop.name? ≠ some slot.1) :
    .added prop ∈
      (slots.foldl
        (fun d slot => d.replace slot.1 slot.2) d).parts := by
  induction slots generalizing d with
  | nil => exact hMem
  | cons slot rest ih =>
      rw [List.foldl_cons]
      refine ih ?_ fun s hS =>
        hOther s (List.mem_cons_of_mem _ hS)
      have hName := hOther slot (List.mem_cons_self ..)
      refine List.mem_append_left _ ?_
      unfold remove
      split
      · refine (List.mem_eraseP_of_neg ?_).mpr hMem
        simpa [Part.name?] using hName
      · exact hMem

end Draft

namespace Component

/- The draft of a component as changes of its literal. -/
theorem draft_eq_run
    (c : Component)
    (f : File) :
    c.draft f =
      Draft.run c.literal
        ((c.slots f).map fun slot =>
          .replace slot.1 slot.2) := by
  unfold draft Draft.run
  rw [List.foldl_map]
  rfl

/- An added entry of the draft is a generated one. -/
theorem generates_of_added_mem
    {c : Component}
    {f : File}
    {prop : PropNode}
    (hMem : .added prop ∈ (c.draft f).parts) :
    ∃ name, c.Generates f name prop := by
  rw [draft_eq_run] at hMem
  have hOrdered := Draft.ordered_run c.literal
    ((c.slots f).map fun slot => .replace slot.1 slot.2)
  rcases hOrdered.cases_of_mem hMem with
    ⟨_, _, hKept, _⟩ | ⟨p, hAdded, hProp⟩
  · exact absurd hKept (by simp)
  · rw [Draft.Part.added.injEq] at hAdded
    subst hAdded
    rcases List.mem_flatMap.mp hProp with ⟨s, hS, hProp⟩
    rcases List.mem_map.mp hS with ⟨⟨name, q⟩, hSlot, rfl⟩
    rw [Draft.Step.added, List.mem_singleton] at hProp
    subst hProp
    exact ⟨name, generates_of_mem_slots hSlot⟩

/- A generated entry that no later one replaces is there. -/
theorem added_mem_draft
    {c : Component}
    {f : File}
    {before after : List (Text × PropNode)}
    {name : Text}
    {prop : PropNode}
    (hSlots : c.slots f = before ++ (name, prop) :: after)
    (hOther : ∀ slot ∈ after, prop.name? ≠ some slot.1) :
    .added prop ∈ (c.draft f).parts := by
  unfold draft
  rw [hSlots, List.foldl_append, List.foldl_cons]
  refine Draft.added_mem_foldl_replace after ?_ hOther
  simp [Draft.replace, Draft.add]

------------------------------------------------------------
-- Ids
------------------------------------------------------------

/-
  A component that is known by an id wherever one is
  generated for it, and by another for its module.  Names
  of entries can be chosen, and one that is chosen for the
  template or the styles is not an id.
-/
structure Identified
    (c : Component)
    (f : File)
    (id moduleId : Text) : Prop where
  record : (c.record f).scopeId = id
  template :
    ∀ r, (c.record f).template = some r →
      Resource.RequestedFor id r
  requests :
    ∀ prop, .added prop ∈ (c.draft f).parts →
      ∀ r ∈ prop.requests, Resource.RequestedFor id r
  written :
    (c.fragments f).isScoped = true →
      f.names.template ≠ scopeIdName →
      f.names.styles ≠ scopeIdName →
      .added (.keyValue scopeIdName
          (.str (scopeAttribute id))) ∈ (c.draft f).parts
  scopeId :
    ∀ value,
      .added (.keyValue scopeIdName value) ∈
          (c.draft f).parts →
        f.names.styles ≠ scopeIdName →
        value = .str (scopeAttribute id)
  server :
    f.settings.server = true →
      .added (.keyValue moduleIdName (.str moduleId)) ∈
        (c.draft f).parts
  moduleId :
    ∀ value,
      .added (.keyValue moduleIdName value) ∈
          (c.draft f).parts →
        f.names.styles ≠ moduleIdName →
        f.settings.server = true ∧ value = .str moduleId

/- A scoped component is written with its scope id. -/
theorem scopeId_mem_draft
    {c : Component}
    {f : File}
    (hScoped : (c.fragments f).isScoped = true)
    (hTemplate : f.names.template ≠ scopeIdName)
    (hStyles : f.names.styles ≠ scopeIdName) :
    .added (.keyValue scopeIdName
        (.str (scopeAttribute (c.scopeId f)))) ∈
      (c.draft f).parts := by
  have hSlots : c.slots f =
      [] ++ (scopeIdName, .keyValue scopeIdName
          (.str (scopeAttribute (c.scopeId f)))) ::
        (((c.fragments f).compiled.map
            fun p => (compiledName, p)).toList ++
          ((c.fragments f).template.map
            fun t => (f.names.template, t.2)).toList ++
          ((c.fragments f).styles.map
            fun p => (f.names.styles, p)).toList ++
          c.settingSlots f) := by
    unfold slots Fragments.slots
    rw [scopeId_fragments, if_pos hScoped]
    simp
  refine added_mem_draft hSlots ?_
  rintro ⟨name, prop⟩ hMem
  simp only [settingSlots, stringSlot, List.mem_append,
    Option.mem_toList, Option.map_eq_some_iff,
    List.mem_ite_nil_right, List.mem_ite_nil_left,
    List.mem_singleton, Prod.mk.injEq] at hMem
  have hName : name ≠ scopeIdName := by
    rcases hMem with
      ((⟨_, _, rfl, _⟩ | ⟨_, _, rfl, _⟩) |
        ⟨_, _, rfl, _⟩) | ⟨_, rfl, _⟩ | ⟨_, rfl, _⟩
    · decide
    · exact hTemplate
    · exact hStyles
    · decide
    · decide
  intro hSame
  exact hName (Option.some.inj hSame).symm

/- A component of a server is written with its module. -/
theorem moduleId_mem_draft
    {c : Component}
    {f : File}
    (hServer : f.settings.server = true) :
    .added (.keyValue moduleIdName (.str (c.moduleId f))) ∈
      (c.draft f).parts := by
  have hSlots : c.slots f =
      (c.fragments f).slots f.names ++
        (moduleIdName,
            .keyValue moduleIdName (.str (c.moduleId f))) ::
          (if f.settings.production then
            []
          else
            [stringSlot fileName f.settings.shortPath]) := by
    unfold slots settingSlots
    rw [if_pos hServer]
    rfl
  refine added_mem_draft hSlots ?_
  intro slot hMem
  rw [List.mem_ite_nil_left, List.mem_singleton] at hMem
  rw [hMem.2]
  have hNames : some moduleIdName ≠ some fileName := by
    decide
  exact hNames

theorem identified
    (c : Component)
    (f : File) :
    c.Identified f (c.scopeId f) (c.moduleId f) where
  record := rfl
  template := by
    intro r hTemplate
    rcases Option.map_eq_some_iff.mp hTemplate with
      ⟨t, hT, rfl⟩
    exact (template_fragments hT).1
  requests := by
    intro prop hMem r hRequest
    rcases generates_of_added_mem hMem with ⟨_, hGenerates⟩
    exact hGenerates.requestedFor hRequest
  written := scopeId_mem_draft
  scopeId := by
    intro value hMem hStyles
    rcases generates_of_added_mem hMem with ⟨_, hGenerates⟩
    rcases hGenerates.keyValue_cases with
      ⟨_, hValue⟩ | ⟨hName, _⟩ | hName | hName | hName
    · exact hValue
    · exact absurd hName (by decide)
    · exact absurd hName.symm hStyles
    · exact absurd hName (by decide)
    · exact absurd hName (by decide)
  server := moduleId_mem_draft
  moduleId := by
    intro value hMem hStyles
    rcases generates_of_added_mem hMem with ⟨_, hGenerates⟩
    rcases hGenerates.keyValue_cases with
      ⟨hName, _⟩ | ⟨_, hValue⟩ | hName | hName | hName
    · exact absurd hName (by decide)
    · exact hValue
    · exact absurd hName.symm hStyles
    · exact absurd hName (by decide)
    · exact absurd hName (by decide)

------------------------------------------------------------
-- Names
------------------------------------------------------------

theorem join_append_singleton
    {sep : Text}
    {ts : List Text}
    (hSome : ts ≠ [])
    (t : Text) :
    Text.join sep (ts ++ [t]) =
      Text.join sep ts ++ sep ++ t := by
  induction ts with
  | nil => exact absurd rfl hSome
  | cons first rest ih =>
      cases rest with
      | nil => rfl
      | cons second rest =>
          have hRest := ih (by simp)
          have hJoin : ∀ ts,
              Text.join sep (first :: second :: ts) =
                first ++ sep ++
                  Text.join sep (second :: ts) :=
            fun _ => rfl
          rw [List.cons_append] at hRest
          rw [List.cons_append, List.cons_append, hJoin,
            hJoin, hRest]
          simp only [List.append_assoc]

/- Names are joined to one that is not empty. -/
theorem join_ne_nil
    {scope : List Text}
    (hSome : scope ≠ [])
    (hScope : scope ≠ [[]]) :
    Text.join ['.'] scope ≠ [] := by
  match scope with
  | [] => exact absurd rfl hSome
  | [t] =>
      intro hNil
      exact hScope (by rw [show t = [] from hNil])
  | first :: second :: rest =>
      simp [Text.join]

/- A qualified name is joined like those around it. -/
theorem qualified_eq
    {scope : List Text}
    (hScope : scope ≠ [[]])
    (name : Text) :
    qualified scope name =
      Text.join ['.'] (scope ++ [name]) := by
  by_cases hSome : scope = []
  · subst hSome
    rfl
  · have hOuter : (Text.join ['.'] scope).isEmpty = false := by
      rw [List.isEmpty_eq_false_iff]
      exact join_ne_nil hSome hScope
    rw [join_append_singleton hSome]
    simp [qualified, hOuter]

/-
  The name that a component is known by: the one it was
  given in its scope, or else one made from its ordinal.
  No namespace has an empty name.
-/
structure Named
    (c : Component)
    (f : File) : Prop where
  declared :
    ∀ n, c.candidate.name = some n →
      c.candidate.scope ≠ [[]] →
      c.name f =
        Text.join ['.'] (c.candidate.scope ++ [n])
  anonymous :
    c.candidate.name = none →
      c.name f =
        "Component_".toList ++ f.digest ++ ['_'] ++
          Text.ofNat (c.ordinal + 1)

theorem named
    (c : Component)
    (f : File) :
    c.Named f where
  declared := by
    intro n hName hScope
    unfold name
    rw [hName]
    exact qualified_eq hScope n
  anonymous := by
    intro hName
    unfold name
    rw [hName]
    rfl

end Component

end ComponentLoader
