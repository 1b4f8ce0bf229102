import Mathlib.Tactic
import ComponentLoader.Proofs.Component.Entries

/-
  Whether what is generated from a literal is still there
  when the literal is written, and whether the entries that
  are named for the template and the styles are the ones
  that are read.

  Both can fail for options that are accepted: a name that
  is chosen may be one of a generated entry.  Entries with
  the names of marks are read before those of the template
  and the styles, and the entries that follow from the
  settings take the place of the first entry of their name,
  which may be the generated styles.

  Main declarations:
    * `Draft.exists_parts_foldl_replace`
    * `Draft.named_foldl_replace`
    * `Literal.Repeats`
    * `Component.Retains`
    * `Component.Unhindered`
    * `Component.retains_iff`
-/

------------------------------------------------------------
-- Entries That Are Replaced Later
------------------------------------------------------------

namespace ComponentLoader

namespace Draft

/- Entries put in place of others, one after the other. -/
def replaceAll
    (d : Draft)
    (slots : List (Text × PropNode)) : Draft :=
  slots.foldl (fun d slot => d.replace slot.1 slot.2) d

theorem replaceAll_cons
    (d : Draft)
    (slot : Text × PropNode)
    (rest : List (Text × PropNode)) :
    d.replaceAll (slot :: rest) =
      (d.replace slot.1 slot.2).replaceAll rest :=
  rfl

theorem replaceAll_append
    (d : Draft)
    (first rest : List (Text × PropNode)) :
    d.replaceAll (first ++ rest) =
      (d.replaceAll first).replaceAll rest :=
  List.foldl_append

/- The entries of a draft with a name. -/
def named
    (d : Draft)
    (name : Text) : List Part :=
  d.parts.filter fun p => p.name? == some name

/-
  Entries in the middle stay if none of the replaced names
  is first met among them: it is met before, or they do not
  have it at all.
-/
theorem exists_parts_foldl_replace
    {slots : List (Text × PropNode)}
    (hDistinct : (slots.map Prod.fst).Nodup)
    {middle : List Part}
    {d : Draft}
    {front back : List Part}
    (hParts : d.parts = front ++ middle ++ back)
    (hSpared :
      ∀ slot ∈ slots,
        (∃ p ∈ front, p.name? = some slot.1) ∨
          ∀ p ∈ middle, p.name? ≠ some slot.1) :
    ∃ before after,
      (d.replaceAll slots).parts =
        before ++ middle ++ after := by
  induction slots generalizing d front back with
  | nil => exact ⟨front, back, hParts⟩
  | cons slot rest ih =>
      rw [List.map_cons, List.nodup_cons] at hDistinct
      rcases hDistinct with ⟨hFresh, hDistinct⟩
      have hReplace :
          (d.replace slot.1 slot.2).parts =
            (front ++ (middle ++ back)).eraseP
                (fun p => p.name? == some slot.1) ++
              [.added slot.2] := by
        rw [replace, add, parts_remove, hParts,
          List.append_assoc]
      by_cases hFront : ∃ p ∈ front, p.name? = some slot.1
      · rcases hFront with ⟨p, hMem, hName⟩
        rw [List.eraseP_append_left (by simpa using hName)
          _ hMem] at hReplace
        have hNext :
            (d.replace slot.1 slot.2).parts =
              front.eraseP (fun p =>
                  p.name? == some slot.1) ++
                middle ++ (back ++ [.added slot.2]) := by
          rw [hReplace]
          simp only [List.append_assoc]
        apply ih hDistinct hNext
        intro later hLater
        have hOther : later.1 ≠ slot.1 := by
          intro hSame
          apply hFresh
          rw [← hSame]
          exact List.mem_map_of_mem hLater
        rcases hSpared later (List.mem_cons_of_mem _ hLater)
          with ⟨q, hQ, hFound⟩ | hNone
        · left
          refine ⟨q, ?_, hFound⟩
          apply (List.mem_eraseP_of_neg _).mpr hQ
          simp [hFound, hOther]
        · exact Or.inr hNone
      · have hMiddle :
            ∀ p ∈ middle, p.name? ≠ some slot.1 :=
          (hSpared slot List.mem_cons_self).resolve_left
            hFront
        rw [List.eraseP_append_right _ (by
            intro p hMem hName
            exact hFront ⟨p, hMem, eq_of_beq hName⟩),
          List.eraseP_append_right _ (by
            intro p hMem hName
            exact hMiddle p hMem (eq_of_beq hName))]
          at hReplace
        have hNext :
            (d.replace slot.1 slot.2).parts =
              front ++ middle ++
                (back.eraseP (fun p =>
                    p.name? == some slot.1) ++
                  [.added slot.2]) := by
          rw [hReplace]
          simp only [List.append_assoc]
        apply ih hDistinct hNext
        intro later hLater
        exact hSpared later
          (List.mem_cons_of_mem _ hLater)

theorem filter_eraseP_of_disjoint
    {α : Type}
    {p q : α → Bool}
    (hApart : ∀ a, p a = true → q a = false)
    (as : List α) :
    (as.eraseP q).filter p = as.filter p := by
  induction as with
  | nil => rfl
  | cons a rest ih =>
      cases hQ : q a with
      | true =>
          have hP : ¬ p a = true := by
            intro hP
            rw [hApart a hP] at hQ
            exact absurd hQ (by decide)
          rw [List.eraseP_cons_of_pos hQ,
            List.filter_cons_of_neg hP]
      | false =>
          rw [List.eraseP_cons_of_neg (by simp [hQ])]
          simp only [List.filter_cons, ih]

theorem filter_eraseP_self
    {α : Type}
    (p : α → Bool)
    (as : List α) :
    (as.eraseP p).filter p = (as.filter p).tail := by
  induction as with
  | nil => rfl
  | cons a rest ih =>
      by_cases hP : p a = true
      · rw [List.eraseP_cons_of_pos hP,
          List.filter_cons_of_pos hP, List.tail_cons]
      · rw [List.eraseP_cons_of_neg hP,
          List.filter_cons_of_neg hP,
          List.filter_cons_of_neg hP, ih]

/- The first entry of a name gives way to a new last one. -/
theorem named_replace_self
    (d : Draft)
    {name : Text}
    {prop : PropNode}
    (hName : prop.name? = some name) :
    (d.replace name prop).named name =
      (d.named name).tail ++ [.added prop] := by
  have hAdded :
      ([.added prop] : List Part).filter
        (fun p => p.name? == some name) =
          [.added prop] := by
    simp [Part.name?, hName]
  unfold named
  rw [replace, add, parts_remove, List.filter_append,
    filter_eraseP_self, hAdded]

/- Entries of other names are not touched. -/
theorem named_replace_other
    (d : Draft)
    {name other : Text}
    {prop : PropNode}
    (hOther : name ≠ other)
    (hName : prop.name? ≠ some name) :
    (d.replace other prop).named name = d.named name := by
  have hAdded :
      ([.added prop] : List Part).filter
        (fun p => p.name? == some name) = [] := by
    simp [Part.name?, hName]
  unfold named
  rw [replace, add, parts_remove, List.filter_append,
    hAdded, List.append_nil]
  apply filter_eraseP_of_disjoint
  intro p hMine
  rw [eq_of_beq hMine]
  simp [hOther]

/-
  A name that is replaced is replaced once, whatever else
  is replaced before and after.
-/
theorem named_foldl_replace
    {slots : List (Text × PropNode)}
    (hDistinct : (slots.map Prod.fst).Nodup)
    (hNames :
      ∀ slot ∈ slots, slot.2.name? = some slot.1)
    {name : Text}
    {prop : PropNode}
    (hMem : (name, prop) ∈ slots)
    (d : Draft) :
    (d.replaceAll slots).named name =
      (d.named name).tail ++ [.added prop] := by
  have hSkip :
      ∀ (rest : List (Text × PropNode)) (d : Draft),
        name ∉ rest.map Prod.fst →
          (∀ slot ∈ rest, slot.2.name? = some slot.1) →
            (d.replaceAll rest).named name =
              d.named name := by
    intro rest
    induction rest with
    | nil => exact fun _ _ _ => rfl
    | cons slot rest ih =>
        intro d hFresh hNames
        rw [List.map_cons, List.mem_cons, not_or] at hFresh
        have hSlot := hNames slot List.mem_cons_self
        have hRest := ih (d.replace slot.1 slot.2) hFresh.2
          fun s hS => hNames s (List.mem_cons_of_mem _ hS)
        rw [replaceAll_cons, hRest,
          named_replace_other d hFresh.1]
        rw [hSlot, ne_eq, Option.some.injEq]
        exact Ne.symm hFresh.1
  induction slots generalizing d with
  | nil => exact absurd hMem (by simp)
  | cons slot rest ih =>
      rw [List.map_cons, List.nodup_cons] at hDistinct
      have hRestNames :
          ∀ s ∈ rest, s.2.name? = some s.1 :=
        fun s hS => hNames s (List.mem_cons_of_mem _ hS)
      have hSlot := hNames slot List.mem_cons_self
      rw [replaceAll_cons]
      rcases List.mem_cons.mp hMem with hHead | hRest
      · subst hHead
        rw [hSkip rest _ hDistinct.1 hRestNames]
        exact d.named_replace_self hSlot
      · have hOther : name ≠ slot.1 := by
          intro hSame
          apply hDistinct.1
          rw [← hSame]
          exact List.mem_map_of_mem hRest
        rw [ih hDistinct.2 hRestNames hRest,
          named_replace_other d hOther]
        rw [hSlot, ne_eq, Option.some.injEq]
        exact Ne.symm hOther

end Draft

------------------------------------------------------------
-- Generated Entries That Stay
------------------------------------------------------------

/- Template and styles have names of their own. -/
theorem Options.names_ne_of_fault?
    {o : Options}
    (hOptions : o.fault? = none) :
    o.templateName ≠ o.stylesName := by
  unfold fault? at hOptions
  split_ifs at hOptions with _ _ _ hSame
  exact hSame

/- Whether two entries of a literal have a name. -/
def Literal.Repeats
    (l : Literal)
    (name : Text) : Prop :=
  ∃ index entry,
    l.entries[index]? = some entry ∧
      entry.name? = some name ∧
      ∃ e ∈ l.entries.take index, e.name? = some name

theorem Text.infix_join
    (sep : Text)
    {piece : Text}
    {pieces : List Text}
    (hMem : piece ∈ pieces) :
    piece <:+: join sep pieces := by
  induction pieces with
  | nil => exact absurd hMem (by simp)
  | cons first rest ih =>
      cases rest with
      | nil =>
          rw [List.mem_singleton.mp hMem]
          exact List.infix_refl _
      | cons next more =>
          rw [join_cons_cons]
          rcases List.mem_cons.mp hMem with rfl | hMem
          · rw [List.append_assoc]
            exact (List.prefix_append _ _).isInfix
          · exact (ih hMem).trans
              (List.suffix_append _ _).isInfix

/- A new entry of a draft is written. -/
theorem Draft.infix_render
    {d : Draft}
    {prop : PropNode}
    (hMem : .added prop ∈ d.parts)
    (source : Source) :
    prop.render <:+: d.render source := by
  have hSome : d.parts.isEmpty = false := by
    rw [List.isEmpty_eq_false_iff]
    exact List.ne_nil_of_mem hMem
  have hItem := Text.infix_join
    (layoutOf d.literal source).separator
    (List.mem_map_of_mem
      (f := renderPart source (d.literal.comments source))
      hMem)
  apply hItem.trans
  refine ⟨'{' :: (layoutOf d.literal source).lead,
    renderTrailing (layoutOf d.literal source)
        (d.literal.comments source).trailing ++
      (layoutOf d.literal source).close ++ ['}'], ?_⟩
  simp [render, hSome]

namespace Component

/-
  Whether the entries generated from a literal are written
  with it, and whether those read as its template and its
  styles are the last entries with these names.
-/
structure Retains
    (c : Component)
    (f : File) : Prop where
  fragments :
    (((c.fragments f).slots f.names).map fun slot =>
      Draft.Part.added slot.2).Sublist (c.draft f).parts
  written :
    ∀ slot ∈ (c.fragments f).slots f.names,
      slot.2.render <:+: (c.draft f).render f.source
  template :
    (Params.ofLiteral c.literal f.names).template =
      (c.literal.lastNamed? f.names.template).map
        Value.ofEntry
  styles :
    (Params.ofLiteral c.literal f.names).styles =
      (c.literal.lastNamed? f.names.styles).map
        Value.ofEntry

/-
  Whether no chosen name is in the way: no entry of the
  literal is named for the template or the styles if this
  name is that of a mark, and no entry that follows from
  the settings takes the place of generated styles.  It
  takes that of another entry if the literal has two with
  its name.
-/
structure Unhindered
    (c : Component)
    (f : File) : Prop where
  template :
    f.names.template ∈ markNames →
      c.literal.lastNamed? f.names.template = none
  styles :
    f.names.styles ∈ markNames →
      c.literal.lastNamed? f.names.styles = none
  settings :
    f.names.styles ∈ (c.settingSlots f).map Prod.fst →
      (c.fragments f).styles.isSome = true →
        c.literal.Repeats f.names.styles

section

variable {c : Component}
variable {f : File}

/-
  The styles are generated last, and what comes before
  them can have the names of marks only.
-/
theorem exists_slots_fragments
    (c : Component)
    (f : File) :
    ∃ before,
      (c.fragments f).slots f.names =
          before ++
            ((c.fragments f).styles.map fun p =>
              (f.names.styles, p)).toList ∧
        ∀ slot ∈ before, ∀ name,
          slot.2.name? = some name → name ∈ markNames := by
  refine ⟨_, rfl, ?_⟩
  rintro ⟨other, prop⟩ hMem name hName
  have hSlot :
      (other, prop) ∈ (c.fragments f).slots f.names :=
    List.mem_append_left _ hMem
  have hSame :=
    (generates_of_mem_fragments hSlot).name_eq hName
  simp only [List.mem_append, Option.mem_toList,
    Option.map_eq_some_iff, Prod.mk.injEq] at hMem
  rcases hMem with
    (⟨_, _, hMark, _⟩ | ⟨_, _, hMark, _⟩) |
      ⟨t, hT, _, hSpread⟩
  · rw [hSame, ← hMark]
    exact List.mem_cons_self
  · rw [hSame, ← hMark]
    exact List.mem_cons_of_mem _ List.mem_cons_self
  · rw [← hSpread, (template_fragments hT).2] at hName
    exact absurd hName (by simp [PropNode.name?])

/- No template is generated for the name of a mark. -/
theorem template_not_mem_markNames
    (hSome : (c.fragments f).template.isSome = true) :
    f.names.template ∉ markNames := by
  intro hMark
  have hTemplate :
      (c.fragments f).template =
        (Params.ofLiteral c.literal f.names).template.bind
          (templateOf
            ((c.fragments f).scope (c.scopeId f))) := rfl
  rw [hTemplate, Params.template_eq, if_pos hMark] at hSome
  exact absurd hSome (by simp)

/- Generated styles are those of the last entry. -/
theorem exists_styles_fragments
    (hNames : f.names.template ≠ f.names.styles)
    {prop : PropNode}
    (hSome : (c.fragments f).styles = some prop) :
    f.names.styles ∉ markNames ∧
      ∃ node,
        prop = .keyValue f.names.styles node ∧
          node.requests ≠ [] := by
  have hStyles :
      (c.fragments f).styles =
        (((Params.ofLiteral c.literal f.names).styles.map
          (Styles.classify f.source (c.scopeId f))).filter
            fun o => o.changed).map fun o =>
              .keyValue f.names.styles o.node := rfl
  rw [hStyles, Params.styles_eq _ hNames] at hSome
  split at hSome
  · exact absurd hSome (by simp)
  · next hPlain =>
      refine ⟨hPlain, ?_⟩
      rcases Option.map_eq_some_iff.mp hSome with
        ⟨outcome, hFilter, hProp⟩
      rcases Option.filter_eq_some_iff.mp hFilter with
        ⟨hOutcome, hChanged⟩
      rw [Option.map_map] at hOutcome
      rcases Option.map_eq_some_iff.mp hOutcome with
        ⟨entry, _, hEq⟩
      have hShows := Styles.shows_entry f.source
        (c.scopeId f) entry
      have hChanges := hShows.changed
      have hRequests := hShows.requests
      rw [Function.comp_apply] at hEq
      rw [hEq] at hChanges hRequests
      refine ⟨outcome.node, hProp.symm, ?_⟩
      rw [hRequests]
      intro hNone
      rw [hChanges, List.map_eq_nil_iff.mp hNone]
        at hChanged
      exact absurd hChanged (by simp)

theorem nodup_fragments
    (hNames : f.names.template ≠ f.names.styles) :
    (((c.fragments f).slots f.names).map
      Prod.fst).Nodup := by
  have hCompiled :
      (c.fragments f).compiled =
        (c.fragments f).template.map
          fun _ => .keyValue compiledName (.bool true) := rfl
  have hMarks : scopeIdName ≠ compiledName := by decide
  have hTemplate :
      (c.fragments f).template.isSome = true →
        scopeIdName ≠ f.names.template ∧
          compiledName ≠ f.names.template := by
    intro hSome
    simpa [markNames, eq_comm] using
      template_not_mem_markNames hSome
  have hStyles :
      (c.fragments f).styles.isSome = true →
        scopeIdName ≠ f.names.styles ∧
          compiledName ≠ f.names.styles := by
    intro hSome
    rcases Option.isSome_iff_exists.mp hSome with ⟨p, hP⟩
    simpa [markNames, eq_comm] using
      (exists_styles_fragments hNames hP).1
  unfold Fragments.slots
  rw [hCompiled]
  cases (c.fragments f).scopeId <;>
    cases hT : (c.fragments f).template <;>
    cases hS : (c.fragments f).styles <;>
    simp_all

/- Entries that follow from the settings, and no others. -/
theorem of_mem_settingSlots
    {slot : Text × PropNode}
    (hMem : slot ∈ c.settingSlots f) :
    slot.1 ∈ [moduleIdName, fileName] ∧
      ∃ value, slot.2 = .keyValue slot.1 (.str value) := by
  simp only [settingSlots, stringSlot, List.mem_append,
    List.mem_ite_nil_right, List.mem_ite_nil_left,
    List.mem_singleton] at hMem
  rcases hMem with ⟨_, rfl⟩ | ⟨_, rfl⟩
  · exact ⟨List.mem_cons_self, _, rfl⟩
  · exact ⟨List.mem_cons_of_mem _ List.mem_cons_self, _,
      rfl⟩

theorem nodup_settingSlots
    (c : Component)
    (f : File) :
    ((c.settingSlots f).map Prod.fst).Nodup := by
  have hNames : moduleIdName ≠ fileName := by decide
  unfold settingSlots stringSlot
  cases f.settings.server <;>
    cases f.settings.production <;>
    simp [hNames]

/- The entries of the literal, and what is generated. -/
theorem parts_fragments
    (hNames : f.names.template ≠ f.names.styles) :
    ((Draft.ofLiteral c.literal).replaceAll
        ((c.fragments f).slots f.names)).parts =
      Draft.remaining c.literal
          (((c.fragments f).slots f.names).map Prod.fst) ++
        ((c.fragments f).slots f.names).map fun slot =>
          .added slot.2 := by
  apply Draft.parts_foldl_replace _ (nodup_fragments hNames)
  intro slot hMem name hName
  exact (generates_of_mem_fragments hMem).name_eq hName

theorem draft_eq
    (c : Component)
    (f : File) :
    c.draft f =
      ((Draft.ofLiteral c.literal).replaceAll
        ((c.fragments f).slots f.names)).replaceAll
          (c.settingSlots f) :=
  Draft.replaceAll_append _ _ _

/-
  What a later entry is looked for under is met among the
  entries of the literal, or not among generated ones.
-/
theorem spared_of_unhindered
    (hNames : f.names.template ≠ f.names.styles)
    (hFree : c.Unhindered f)
    {slot : Text × PropNode}
    (hMem : slot ∈ c.settingSlots f) :
    (∃ p ∈ Draft.remaining c.literal
          (((c.fragments f).slots f.names).map Prod.fst),
        p.name? = some slot.1) ∨
      ∀ p ∈ ((c.fragments f).slots f.names).map
          fun s => Draft.Part.added s.2,
        p.name? ≠ some slot.1 := by
  have hApart :
      ∀ name ∈ [moduleIdName, fileName],
        name ∉ markNames := by
    decide
  have hSlot := (of_mem_settingSlots hMem).1
  by_cases hStyles :
      slot.1 = f.names.styles ∧
        (c.fragments f).styles.isSome = true
  · rcases hStyles with ⟨hName, hSome⟩
    left
    rw [hName]
    rcases hFree.settings
        (hName ▸ List.mem_map_of_mem hMem) hSome with
      ⟨index, entry, hEntry, hFound, e, hBefore, hSame⟩
    refine ⟨.kept index entry, ?_, hFound⟩
    apply Draft.mem_remaining.mpr
    refine ⟨hEntry, ?_⟩
    rintro ⟨name, _, hOther, hFirst⟩
    apply hFirst e hBefore
    rw [hSame, ← hFound, hOther]
  · right
    rcases exists_slots_fragments c f with
      ⟨before, hSlots, hMarks⟩
    intro p hP hName
    rcases List.mem_map.mp hP with ⟨s, hS, rfl⟩
    have hLooked : s.2.name? = some slot.1 := hName
    rw [hSlots] at hS
    rcases List.mem_append.mp hS with hS | hS
    · exact hApart _ hSlot (hMarks s hS _ hLooked)
    · apply hStyles
      rw [Option.mem_toList] at hS
      rcases Option.map_eq_some_iff.mp hS with
        ⟨prop, hProp, rfl⟩
      rcases exists_styles_fragments hNames hProp with
        ⟨_, node, rfl, _⟩
      rw [PropNode.name?, Option.some.injEq] at hLooked
      exact ⟨hLooked.symm, by rw [hProp]; rfl⟩

/- Without a name in the way, everything stays. -/
theorem retains_of_unhindered
    (hNames : f.names.template ≠ f.names.styles)
    (hFree : c.Unhindered f) :
    c.Retains f := by
  have hFragments := parts_fragments (c := c) hNames
  rw [← List.append_nil (_ ++ _)] at hFragments
  rcases Draft.exists_parts_foldl_replace
      (nodup_settingSlots c f) hFragments
      (fun slot hMem =>
        spared_of_unhindered hNames hFree hMem) with
    ⟨before, after, hParts⟩
  rw [← draft_eq] at hParts
  have hStay :
      (((c.fragments f).slots f.names).map fun slot =>
        Draft.Part.added slot.2).Sublist
          (c.draft f).parts := by
    rw [hParts]
    exact (List.sublist_append_right _ _).trans
      (List.sublist_append_left _ _)
  constructor
  case fragments => exact hStay
  case written =>
    intro slot hMem
    apply Draft.infix_render
    exact hStay.subset (List.mem_map_of_mem hMem)
  case template =>
    rw [Params.template_eq]
    split
    · next hMark => rw [hFree.template hMark]; rfl
    · rfl
  case styles =>
    rw [Params.styles_eq _ hNames]
    split
    · next hMark => rw [hFree.styles hMark]; rfl
    · rfl

/- Generated styles are the first entry of their name. -/
theorem named_fragments
    (hNames : f.names.template ≠ f.names.styles)
    (hOnce : ¬ c.literal.Repeats f.names.styles)
    {prop : PropNode}
    (hSome : (c.fragments f).styles = some prop) :
    ((Draft.ofLiteral c.literal).replaceAll
      ((c.fragments f).slots f.names)).named
        f.names.styles = [.added prop] := by
  rcases exists_slots_fragments c f with
    ⟨before, hSlots, hMarks⟩
  rcases exists_styles_fragments hNames hSome with
    ⟨hPlain, node, rfl, _⟩
  rw [hSome] at hSlots
  have hKept :
      (Draft.remaining c.literal
        (((c.fragments f).slots f.names).map
          Prod.fst)).filter (fun p =>
            p.name? == some f.names.styles) = [] := by
    rw [List.filter_eq_nil_iff]
    intro p hMem hName
    unfold Draft.remaining at hMem
    rcases List.mem_map.mp hMem with ⟨e, _, rfl⟩
    rcases Draft.mem_remaining.mp hMem with
      ⟨hEntry, hStays⟩
    have hFound : e.1.name? = some f.names.styles :=
      eq_of_beq hName
    apply hStays
    refine ⟨f.names.styles, ?_, hFound, ?_⟩
    · rw [hSlots]
      simp
    · intro earlier hBefore hSame
      exact hOnce
        ⟨e.2, e.1, hEntry, hFound, earlier, hBefore, hSame⟩
  have hOthers :
      (before.map fun s => Draft.Part.added s.2).filter
        (fun p => p.name? == some f.names.styles) = [] := by
    rw [List.filter_eq_nil_iff]
    intro p hMem hName
    rcases List.mem_map.mp hMem with ⟨s, hS, rfl⟩
    exact hPlain (hMarks s hS _ (eq_of_beq hName))
  unfold Draft.named
  rw [parts_fragments hNames, List.filter_append, hKept,
    hSlots, List.map_append, List.filter_append, hOthers]
  simp [Draft.Part.name?, PropNode.name?]

/- Generated styles that stay are not replaced. -/
theorem repeats_of_retains
    (hNames : f.names.template ≠ f.names.styles)
    (hStays : c.Retains f)
    (hSetting :
      f.names.styles ∈ (c.settingSlots f).map Prod.fst)
    (hSome : (c.fragments f).styles.isSome = true) :
    c.literal.Repeats f.names.styles := by
  by_contra hOnce
  rcases Option.isSome_iff_exists.mp hSome with ⟨p, hP⟩
  rcases exists_styles_fragments hNames hP with
    ⟨_, node, rfl, hRequests⟩
  rcases List.mem_map.mp hSetting with
    ⟨⟨name, later⟩, hMem, hName⟩
  subst hName
  rcases of_mem_settingSlots hMem with ⟨_, value, hLater⟩
  have hNamed := Draft.named_foldl_replace
    (nodup_settingSlots c f)
    (fun s hS => by
      rcases (of_mem_settingSlots hS).2 with ⟨_, hProp⟩
      rw [hProp]
      rfl)
    hMem
    ((Draft.ofLiteral c.literal).replaceAll
      ((c.fragments f).slots f.names))
  rw [named_fragments hNames hOnce hP, ← draft_eq,
    List.tail_cons, List.nil_append] at hNamed
  have hStyles :
      Draft.Part.added (.keyValue f.names.styles node) ∈
        (c.draft f).named f.names.styles := by
    apply List.mem_filter.mpr
    refine ⟨hStays.fragments.subset ?_, ?_⟩
    · rcases exists_slots_fragments c f with
        ⟨before, hSlots, _⟩
      rw [hSlots, hP]
      simp
    · simp [Draft.Part.name?, PropNode.name?]
  rw [hNamed, List.mem_singleton, Draft.Part.added.injEq]
    at hStyles
  have hNode := hStyles.trans hLater
  rw [PropNode.keyValue.injEq] at hNode
  rw [hNode.2, Node.requests] at hRequests
  exact hRequests rfl

/-
  Options that are accepted keep what is generated just
  where no chosen name is in the way of it.
-/
theorem retains_iff
    {context : Context}
    {options : Options}
    (hOptions : options.fault? = none)
    (hSettings :
      f.settings = Settings.resolve context options) :
    c.Retains f ↔ c.Unhindered f := by
  have hNames : f.names.template ≠ f.names.styles := by
    unfold File.names
    rw [hSettings]
    exact Options.names_ne_of_fault? hOptions
  constructor
  · intro hStays
    constructor
    case template =>
      intro hMark
      have hRead := hStays.template
      rw [Params.template_eq, if_pos hMark] at hRead
      exact Option.map_eq_none_iff.mp hRead.symm
    case styles =>
      intro hMark
      have hRead := hStays.styles
      rw [Params.styles_eq _ hNames, if_pos hMark] at hRead
      exact Option.map_eq_none_iff.mp hRead.symm
    case settings =>
      exact repeats_of_retains hNames hStays
  · exact retains_of_unhindered hNames

/- Names apart from those of generated entries do no harm. -/
theorem unhindered_of_avoid
    (hNames : f.names.Avoid generatedNames) :
    c.Unhindered f := by
  have hMarks : f.names.Avoid markNames :=
    hNames.mono (by decide)
  constructor
  case template =>
    exact fun hMark => absurd hMark hMarks.template
  case styles =>
    exact fun hMark => absurd hMark hMarks.styles
  case settings =>
    intro hSetting
    rcases List.mem_map.mp hSetting with ⟨slot, hMem, hName⟩
    have hSlot := (of_mem_settingSlots hMem).1
    rw [hName] at hSlot
    have hTaken :
        [moduleIdName, fileName] ⊆ generatedNames := by
      decide
    exact absurd (hTaken hSlot) hNames.styles

end

------------------------------------------------------------
-- Styles Under The Name Of The Source
------------------------------------------------------------

namespace Sample

/- Options that call the styles what the source is called. -/
def clashingOptions : Options :=
  { stylesName := fileName }

def clashingFile : File :=
  { file with
    settings :=
      Settings.resolve (Context.ofPath "/app/A.ts".toList)
        clashingOptions }

/- A literal with the path of a style under this name. -/
def clashingComponent : Component :=
  { component with
    literal :=
      { span := Span.nowhere
        entries :=
          [.pair Span.nowhere (some fileName)
            (.str Span.nowhere
              (some "a.css".toList))] } }

end Sample

/- The generated styles are lost. -/
theorem retains_iff_sample :
    Sample.clashingOptions.fault? = none ∧
      Sample.clashingFile.settings =
        Settings.resolve (Context.ofPath "/app/A.ts".toList)
          Sample.clashingOptions ∧
      ¬ Sample.clashingComponent.Retains
        Sample.clashingFile := by
  have hOptions : Sample.clashingOptions.fault? = none := by
    decide
  refine ⟨hOptions, rfl, ?_⟩
  rw [retains_iff hOptions rfl]
  intro hFree
  rcases hFree.settings (by decide) (by rfl) with
    ⟨index, entry, hEntry, _, e, hBefore, _⟩
  -- No entry stands before the first, and none behind it.
  cases index with
  | zero => exact absurd hBefore (by simp)
  | succ n =>
      exact absurd hEntry
        (by simp [Sample.clashingComponent])

end Component

end ComponentLoader
