import Mathlib.Tactic
import ComponentLoader.Proofs.Component.Placement
import ComponentLoader.Proofs.Loader.Outcomes

/-
  A file as passages, one for each component that changes:
  its literal, and the text up to the next literal.  The
  edits of the components replace the literals, insert a
  name where one is needed, and touch nothing else.

  Main declarations:
    * `Passage`
    * `Passage.AllStand`
    * `Passage.applyFrom?_eq`
    * `Passage.exists_passages`
    * `Loader.sort_editsOf`
    * `Loader.Edited`
    * `Loader.exists_edited`
-/

------------------------------------------------------------
-- Changed Components
------------------------------------------------------------

namespace ComponentLoader

namespace Component

/- What is inserted after the keyword of a component. -/
def inserted
    (c : Component)
    (f : File) : Text :=
  if c.getsName f then ' ' :: c.name f else []

/- Replacing entries keeps the literal and is a change. -/
theorem foldl_replace
    (slots : List (Text × PropNode))
    (d : Draft) :
    (slots.foldl
          (fun d slot => d.replace slot.1 slot.2)
          d).literal = d.literal ∧
      (slots.foldl
          (fun d slot => d.replace slot.1 slot.2)
          d).modified = (d.modified || !slots.isEmpty) := by
  induction slots generalizing d with
  | nil => simp
  | cons slot rest ih =>
      have hLiteral :
          (d.replace slot.1 slot.2).literal =
            d.literal := by
        unfold Draft.replace Draft.add Draft.remove
        split <;> rfl
      rcases ih (d.replace slot.1 slot.2) with
        ⟨hRest, hModified⟩
      refine ⟨?_, ?_⟩
      · rw [List.foldl_cons, hRest, hLiteral]
      · rw [List.foldl_cons, hModified]
        simp [Draft.replace, Draft.add]

theorem draft_literal
    (c : Component)
    (f : File) :
    (c.draft f).literal = c.literal :=
  (foldl_replace (c.slots f) _).1

theorem draft_modified
    (c : Component)
    (f : File) :
    (c.draft f).modified = !(c.slots f).isEmpty := by
  have hModified := (foldl_replace (c.slots f)
    (Draft.ofLiteral c.literal)).2
  simpa [draft, Draft.ofLiteral] using hModified

/- A component that gets a name changes anyway. -/
theorem modified_of_getsName
    {c : Component}
    {f : File}
    (hName : c.getsName f = true) :
    (c.draft f).modified = true := by
  have hProduction : f.settings.production = false := by
    simp only [getsName, Settings.emitsHotReload,
      Bool.and_eq_true, Bool.not_eq_true'] at hName
    exact hName.2.2
  rw [draft_modified]
  simp [slots, settingSlots, hProduction]

/- What is not changed is not edited. -/
theorem edits?_of_not_modified
    {c : Component}
    {f : File}
    (hModified : (c.draft f).modified = false) :
    c.edits? f = some [] := by
  have hName : c.getsName f = false := by
    by_contra hOther
    rw [Bool.not_eq_false] at hOther
    rw [modified_of_getsName hOther] at hModified
    exact absurd hModified (by decide)
  unfold getsName at hName
  unfold edits? literalEdit
  simp [hModified, hName]

/-
  The edits of a component; none, if they cannot be told.
  Where the component stands in its source, they can.
-/
def edits
    (c : Component)
    (f : File) : List Edit :=
  (c.edits? f).getD []

theorem edits_of_not_modified
    {c : Component}
    {f : File}
    (hModified : (c.draft f).modified = false) :
    c.edits f = [] := by
  rw [edits, edits?_of_not_modified hModified]
  rfl

/- The edits of a component where it stands. -/
theorem edits?_of_stands
    {c : Component}
    {f : File}
    {before literal between after : Text}
    (hStands : c.Stands f before literal between after) :
    c.edits? f = some (c.edits f) := by
  unfold edits edits?
  split
  · rw [hStands.name]
    rfl
  · rfl

theorem edits_of_stands
    {c : Component}
    {f : File}
    {before literal between after : Text}
    (hStands : c.Stands f before literal between after)
    (hModified : (c.draft f).modified = true) :
    c.edits f =
      { start := Text.size before
        stop := Text.size (before ++ literal)
        text := (c.draft f).render f.source } ::
      if c.getsName f then
        [c.nameAfter f (before ++ literal ++ between)]
      else
        [] := by
  unfold edits edits? literalEdit getsName
  simp only [hModified, if_true, draft_literal,
    hStands.range_eq, hStands.name]
  split
  · rfl
  · rfl

/- The edits of a component are inside of its text. -/
theorem bounds_of_mem_edits
    {c : Component}
    {f : File}
    {before literal between after : Text}
    (hStands : c.Stands f before literal between after)
    (hModified : (c.draft f).modified = true) :
    (c.edits f).Pairwise (fun a b => a.start < b.start) ∧
      ∀ e ∈ c.edits f,
        c.start f ≤ e.start ∧ e.start ≤ c.stop f := by
  have hLiteral := hStands.size_lt
  rw [edits_of_stands hStands hModified, hStands.start_eq,
    hStands.stop_eq]
  simp only [Text.size_append] at hLiteral ⊢
  constructor
  · split
    · simp only [List.pairwise_cons, List.mem_singleton,
        forall_eq, nameAfter, Text.size_append]
      refine ⟨?_, by simp⟩
      omega
    · exact List.pairwise_singleton _ _
  · intro e hMem
    rcases List.mem_cons.mp hMem with rfl | hMem
    · simp only
      omega
    · split at hMem
      · rw [List.mem_singleton] at hMem
        subst hMem
        simp only [nameAfter, Text.size_append]
        omega
      · exact absurd hMem (by simp)

end Component

------------------------------------------------------------
-- Passages
------------------------------------------------------------

/-
  A component that changes, and the text from its literal
  up to the next one.
-/
structure Passage where
  component : Component
  literal : Text
  /- The text up to where the component may get a name. -/
  between : Text
  /- The text from there up to the next literal. -/
  rest : Text

namespace Passage

/- A passage of the source. -/
def written
    (p : Passage) : Text :=
  p.literal ++ p.between ++ p.rest

/- What becomes of a passage. -/
def compiled
    (f : File)
    (p : Passage) : Text :=
  (p.component.draft f).render f.source ++ p.between ++
    p.component.inserted f ++ p.rest

/-
  Passages that follow a text: each starts with the text
  of its literal.
-/
def AllStand
    (source : Source) : Text → List Passage → Prop
  | _, [] => True
  | before, p :: ps =>
      p.component.literal.span =
          source.spanOf before p.literal ∧
        AllStand source (before ++ p.written) ps

/-
  Passages that follow a text, with the edits that are to
  be made in them.
-/
def AllEdited
    (f : File) : Text → List Passage → Prop
  | _, [] => True
  | before, p :: ps =>
      (∃ after,
          p.component.Stands f before p.literal p.between
            after) ∧
        (p.component.draft f).modified = true ∧
        AllEdited f (before ++ p.written) ps

theorem AllEdited.allStand
    {f : File}
    {before : Text}
    {ps : List Passage}
    (hEdited : AllEdited f before ps) :
    AllStand f.source before ps := by
  induction ps generalizing before with
  | nil => trivial
  | cons p ps ih =>
      rcases hEdited with ⟨⟨_, hStands⟩, _, hRest⟩
      exact ⟨hStands.span, ih hRest⟩

/- The edits of passages, in order. -/
def edits
    (f : File)
    (ps : List Passage) : List Edit :=
  ps.flatMap fun p => p.component.edits f

/-
  The edits of one passage compile it.  Of its text some
  may be left for the edits after them: `first'` has not
  been written when they start.
-/
theorem applyFrom?_step
    {f : File}
    {p : Passage}
    {done first after : Text}
    (hStands :
      p.component.Stands f (done ++ first) p.literal
        p.between after)
    (hModified : (p.component.draft f).modified = true) :
    ∃ done' first' out,
      done' ++ first' = done ++ first ++ p.written ∧
      out ++ first' = first ++ p.compiled f ∧
      ∀ tail later,
        f.source.text = done ++ first ++ p.written ++ tail →
          Edit.applyFrom? f.source.text (Text.size done)
              (p.component.edits f ++ later) =
            (Edit.applyFrom? f.source.text (Text.size done')
              later).map (out ++ ·) ∧
          (Edit.AllApplied f.source.text.size
              (Text.size done') later →
            Edit.AllApplied f.source.text.size
              (Text.size done)
              (p.component.edits f ++ later)) := by
  have hEdits :=
    Component.edits_of_stands hStands hModified
  by_cases hName : p.component.getsName f = true
  · rw [if_pos hName] at hEdits
    refine ⟨done ++ first ++ p.literal ++ p.between, p.rest,
      first ++ (p.component.draft f).render f.source ++
        p.between ++ p.component.inserted f, ?_, ?_, ?_⟩
    · simp only [written, List.append_assoc]
    · simp only [compiled, List.append_assoc]
    · intro tail later hText
      have hLiteral :
          f.source.text =
            done ++ first ++ p.literal ++
              (p.between ++ p.rest ++ tail) := by
        simpa only [written, List.append_assoc] using hText
      have hBetween :
          f.source.text =
            done ++ first ++ p.literal ++ p.between ++
              (p.rest ++ tail) := by
        simpa only [List.append_assoc] using hLiteral
      have hCut := Edit.applyFrom?_cut hLiteral
        ((p.component.draft f).render f.source)
      have hInsert := Edit.applyFrom?_insert hBetween
        (' ' :: p.component.name f) later
      rw [hEdits, List.cons_append, List.singleton_append]
      constructor
      · rw [hCut, Component.nameAfter, hInsert,
          Option.map_map, Component.inserted, if_pos hName]
        simp only [Function.comp_def, List.append_assoc]
      · intro hApplied
        exact Edit.allApplied_cut hLiteral
          (Edit.allApplied_insert hBetween hApplied)
  · rw [if_neg hName] at hEdits
    refine ⟨done ++ first ++ p.literal, p.between ++ p.rest,
      first ++ (p.component.draft f).render f.source,
      ?_, ?_, ?_⟩
    · simp only [written, List.append_assoc]
    · simp only [compiled, Component.inserted, hName,
        if_false, List.append_assoc, List.nil_append,
        Bool.false_eq_true]
    · intro tail later hText
      have hLiteral :
          f.source.text =
            done ++ first ++ p.literal ++
              (p.between ++ p.rest ++ tail) := by
        simpa only [written, List.append_assoc] using hText
      rw [hEdits, List.singleton_append]
      constructor
      · exact Edit.applyFrom?_cut hLiteral
          ((p.component.draft f).render f.source) later
      · intro hApplied
        exact Edit.allApplied_cut hLiteral hApplied

/-
  The edits of passages compile them one by one, and none
  is skipped.  `done` has been written, and `first` is the
  text before the first passage.
-/
theorem applyFrom?_eq
    {f : File}
    {ps : List Passage}
    {done first : Text}
    (hText :
      f.source.text =
        done ++ first ++ ps.flatMap written)
    (hEdited : AllEdited f (done ++ first) ps) :
    Edit.applyFrom? f.source.text (Text.size done)
        (edits f ps) =
      some (first ++ ps.flatMap (compiled f)) ∧
    Edit.AllApplied f.source.text.size (Text.size done)
      (edits f ps) := by
  induction ps generalizing done first with
  | nil =>
      rw [List.flatMap_nil, List.append_nil] at hText
      refine ⟨?_, trivial⟩
      rw [List.flatMap_nil, List.append_nil]
      exact Edit.applyFrom?_nil hText
  | cons p ps ih =>
      rcases hEdited with
        ⟨⟨after, hStands⟩, hModified, hRest⟩
      rcases applyFrom?_step hStands hModified with
        ⟨done', first', out, hDone, hOut, hStep⟩
      rw [List.flatMap_cons, ← List.append_assoc] at hText
      rw [← hDone] at hRest
      rcases ih (by rw [hText, hDone]) hRest with
        ⟨hApply, hApplied⟩
      rcases hStep (ps.flatMap written) (edits f ps) hText
        with ⟨hFirst, hAll⟩
      refine ⟨?_, hAll hApplied⟩
      rw [hApply, Option.map_some, ← List.append_assoc, hOut,
        List.append_assoc, ← List.flatMap_cons] at hFirst
      exact hFirst

/-
  Components one before another cut what is left of a text
  into passages.
-/
theorem exists_passages
    {f : File}
    {components : List Component}
    {done rest : Text}
    (hText : f.source.text = done ++ rest)
    (hStands :
      ∀ c ∈ components,
        (∃ before literal between after,
          c.Stands f before literal between after) ∧
        (c.draft f).modified = true ∧
        Text.size done ≤ c.start f)
    (hBefore :
      components.Pairwise (Component.Before f)) :
    ∃ first ps,
      rest = first ++ ps.flatMap written ∧
        ps.map Passage.component = components ∧
        AllEdited f (done ++ first) ps := by
  induction components generalizing done rest with
  | nil => exact ⟨rest, [], by simp, rfl, trivial⟩
  | cons c cs ih =>
      rcases List.pairwise_cons.mp hBefore with
        ⟨hFirst, hRest⟩
      rcases hStands c (by simp) with
        ⟨⟨before, literal, between, after, hC⟩, hModified,
          hStart⟩
      rw [hC.start_eq] at hStart
      have hSplit := hC.text
      rw [hText, List.append_assoc, List.append_assoc]
        at hSplit
      rcases Text.exists_append_of_size_le hSplit hStart
        with ⟨first, hPart, hTail⟩
      have hLater := ih hC.text (by
        intro d hMem
        rcases hStands d (List.mem_cons_of_mem c hMem) with
          ⟨hD, hChanged, _⟩
        refine ⟨hD, hChanged, ?_⟩
        have hOrder := hFirst d hMem
        rw [Component.Before, hC.stop_eq] at hOrder
        omega) hRest
      rcases hLater with ⟨more, ps, hAfter, hSame, hEdited⟩
      refine ⟨first,
        { component := c
          literal := literal
          between := between
          rest := more } :: ps, ?_, ?_, ?_⟩
      · rw [hTail, hAfter, List.flatMap_cons, written]
        simp only [List.append_assoc]
      · rw [List.map_cons, hSame]
      · rw [← hPart]
        refine ⟨⟨after, hC⟩, hModified, ?_⟩
        simpa only [written, List.append_assoc] using hEdited

end Passage

------------------------------------------------------------
-- The Edits Of A File
------------------------------------------------------------

namespace Loader

/- The components of a file that change. -/
def changed
    (f : File)
    (components : List Component) : List Component :=
  components.filter fun c => (c.draft f).modified

/- The edits of components, where they can be told. -/
def editsOf
    (f : File)
    (components : List Component) : List Edit :=
  components.flatMap fun c => c.edits f

theorem editsOf?_of_stands
    {f : File}
    {components : List Component}
    (hStands :
      ∀ c ∈ components,
        ∃ before literal between after,
          c.Stands f before literal between after) :
    editsOf? f components = some (editsOf f components) := by
  induction components with
  | nil => rfl
  | cons c cs ih =>
      rcases List.forall_mem_cons.mp hStands with
        ⟨⟨_, _, _, _, hC⟩, hRest⟩
      rw [editsOf?, Component.edits?_of_stands hC, ih hRest]
      rfl

/- Only components that change are edited. -/
theorem editsOf_changed
    (f : File)
    (components : List Component) :
    editsOf f (changed f components) =
      editsOf f components := by
  unfold editsOf changed
  induction components with
  | nil => rfl
  | cons c cs ih =>
      cases hModified : (c.draft f).modified with
      | true =>
          rw [List.filter_cons_of_pos (by exact hModified),
            List.flatMap_cons, List.flatMap_cons, ih]
      | false =>
          have hNone :=
            Component.edits_of_not_modified hModified
          rw [List.filter_cons_of_neg (by simp [hModified]),
            List.flatMap_cons, hNone, ih, List.nil_append]

/- Components that stand apart can be put in order. -/
theorem exists_ordered
    {f : File}
    {components : List Component}
    (hStands :
      ∀ c ∈ components,
        ∃ before literal between after,
          c.Stands f before literal between after)
    (hApart :
      components.Pairwise fun a b =>
        Component.Before f a b ∨ Component.Before f b a) :
    ∃ ordered : List Component,
      ordered.Perm components ∧
        ordered.Pairwise (Component.Before f) := by
  let le : Component → Component → Bool :=
    fun a b => a.start f ≤ b.start f
  have hPerm := List.mergeSort_perm components le
  have hSorted :
      (components.mergeSort le).Pairwise
        fun a b => le a b = true := by
    apply List.pairwise_mergeSort
    · intro a b c hAB hBC
      simp only [le, decide_eq_true_eq] at hAB hBC ⊢
      omega
    · intro a b
      simp only [le, Bool.or_eq_true, decide_eq_true_eq]
      omega
  have hSides := (hPerm.pairwise_iff
    fun {a b} hSide => Or.symm hSide).mpr hApart
  refine ⟨components.mergeSort le, hPerm, ?_⟩
  refine List.Pairwise.imp_of_mem ?_ (hSorted.and hSides)
  intro a b hA hB hBoth
  rcases hBoth with ⟨hLe, hSide | hSide⟩
  · exact hSide
  · -- the other order is not that of the starts
    rcases hStands b (hPerm.mem_iff.mp hB) with
      ⟨before, literal, between, after, hStandsB⟩
    have hLiteral := hStandsB.size_lt
    simp only [le, decide_eq_true_eq] at hLe
    rw [Component.Before, hStandsB.stop_eq] at hSide
    rw [hStandsB.start_eq] at hLe
    simp only [Text.size_append] at hSide hLiteral
    omega

/- Components in order have their edits in order. -/
theorem sort_editsOf
    {f : File}
    {components ordered : List Component}
    (hPerm : ordered.Perm components)
    (hStands :
      ∀ c ∈ ordered,
        (∃ before literal between after,
          c.Stands f before literal between after) ∧
        (c.draft f).modified = true)
    (hBefore : ordered.Pairwise (Component.Before f)) :
    Edit.sort (editsOf f components) =
      editsOf f ordered := by
  have hBounds :
      ∀ c ∈ ordered,
        (c.edits f).Pairwise
            (fun a b => a.start < b.start) ∧
          ∀ e ∈ c.edits f,
            c.start f ≤ e.start ∧ e.start ≤ c.stop f := by
    intro c hMem
    rcases hStands c hMem with
      ⟨⟨_, _, _, _, hC⟩, hModified⟩
    exact Component.bounds_of_mem_edits hC hModified
  apply Edit.sort_eq_of_perm
  · unfold editsOf
    rw [List.pairwise_flatMap]
    refine ⟨fun c hMem => (hBounds c hMem).1, ?_⟩
    refine List.Pairwise.imp_of_mem ?_ hBefore
    intro a b hA hB hOrder x hX y hY
    have hLast := ((hBounds a hA).2 x hX).2
    have hFirst := ((hBounds b hB).2 y hY).1
    unfold Component.Before at hOrder
    omega
  · exact hPerm.flatMap_right _

/-
  A file cut into passages by the components that change,
  in the order of the source, with their edits in order.
-/
structure Edited
    (f : File)
    (components : List Component)
    (first : Text)
    (passages : List Passage) : Prop where
  text :
    f.source.text = first ++ passages.flatMap Passage.written
  stand : Passage.AllEdited f first passages
  changed :
    (passages.map Passage.component).Perm
      (changed f components)
  ordered :
    (passages.map Passage.component).Pairwise
      (Component.Before f)
  told :
    editsOf? f components = some (editsOf f components)
  sort :
    Edit.sort (editsOf f components) =
      Passage.edits f passages

/- The edits compile the passages, and none is skipped. -/
theorem Edited.applyAll?_eq
    {f : File}
    {components : List Component}
    {first : Text}
    {passages : List Passage}
    (hEdited : Edited f components first passages) :
    Edit.applyAll? f.source.text (editsOf f components) =
      some
        (first ++ passages.flatMap (Passage.compiled f)) ∧
    Edit.AllApplied f.source.text.size 0
      (Edit.sort (editsOf f components)) := by
  have hWhole :
      f.source.text =
        [] ++ first ++ passages.flatMap Passage.written :=
    hEdited.text
  rw [Edit.applyAll?, hEdited.sort]
  exact Passage.applyFrom?_eq hWhole hEdited.stand

/- A file is cut so if it is placed in its source. -/
theorem exists_edited
    {f : File}
    {m : Script.Module}
    (hPlaced : m.Placed f.source) :
    ∃ first passages,
      Edited f (componentsOf f m) first passages := by
  let components := componentsOf f m
  rcases Component.pairwise_ofCandidates_before
    f.settings.decoratorName hPlaced with
    ⟨hStands, hApart⟩
  have hChanged :
      ∀ c ∈ changed f components,
        c ∈ components ∧ (c.draft f).modified = true := by
    intro c hMem
    exact List.mem_filter.mp hMem
  rcases exists_ordered
      (fun c hMem => hStands c (hChanged c hMem).1)
      (hApart.filter _) with
    ⟨ordered, hPerm, hBefore⟩
  have hOrdered :
      ∀ c ∈ ordered,
        (∃ before literal between after,
          c.Stands f before literal between after) ∧
        (c.draft f).modified = true := by
    intro c hMem
    rcases hChanged c (hPerm.mem_iff.mp hMem) with
      ⟨hComponent, hModified⟩
    exact ⟨hStands c hComponent, hModified⟩
  have hWhole : f.source.text = [] ++ f.source.text := rfl
  rcases Passage.exists_passages hWhole
      (fun c hMem =>
        ⟨(hOrdered c hMem).1, (hOrdered c hMem).2,
          Nat.zero_le _⟩) hBefore with
    ⟨first, passages, hText, hSame, hEdited⟩
  refine ⟨first, passages, hText, hEdited, hSame ▸ hPerm,
    hSame ▸ hBefore, editsOf?_of_stands hStands, ?_⟩
  rw [← editsOf_changed,
    sort_editsOf hPerm hOrdered hBefore, ← hSame]
  simp [editsOf, Passage.edits, List.flatMap_map]

end Loader

end ComponentLoader
