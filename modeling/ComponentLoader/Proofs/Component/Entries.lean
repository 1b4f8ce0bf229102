import Mathlib.Tactic
import ComponentLoader.Proofs.Component.Scoping
import ComponentLoader.Proofs.Loader.Passages

/-
  The entries of a component after it was compiled.  The
  entries that are generated stand at the end, and of the
  entries of the literal only the first of each generated
  name has given way to them.

  Main declarations:
    * `Literal.GivesWay`
    * `Draft.remaining`
    * `Draft.eraseP_remaining`
    * `Draft.parts_foldl_replace`
    * `Component.Compiled`
    * `Component.compiled_draft`
-/

------------------------------------------------------------
-- Entries That Give Way
------------------------------------------------------------

namespace ComponentLoader

namespace Literal

/-
  Whether an entry of a literal gives way to a new one: its
  name is among some, and no entry before it has this name.
-/
def GivesWay
    (l : Literal)
    (names : List Text)
    (index : Nat)
    (entry : Script.Entry) : Prop :=
  ∃ name ∈ names,
    entry.name? = some name ∧
      ∀ e ∈ l.entries.take index, e.name? ≠ some name

instance
    (l : Literal)
    (names : List Text)
    (index : Nat)
    (entry : Script.Entry) :
    Decidable (l.GivesWay names index entry) := by
  unfold GivesWay
  infer_instance

variable {l : Literal}
variable {names : List Text}
variable {index : Nat}
variable {entry : Script.Entry}

theorem not_givesWay_nil :
    ¬ l.GivesWay [] index entry := by
  rintro ⟨_, hMem, _⟩
  exact absurd hMem (by simp)

theorem givesWay_append
    {others : List Text} :
    l.GivesWay (names ++ others) index entry ↔
      l.GivesWay names index entry ∨
        l.GivesWay others index entry := by
  unfold GivesWay
  constructor
  · rintro ⟨name, hMem, hFirst⟩
    rcases List.mem_append.mp hMem with hMem | hMem
    · exact Or.inl ⟨name, hMem, hFirst⟩
    · exact Or.inr ⟨name, hMem, hFirst⟩
  · rintro (⟨name, hMem, hFirst⟩ | ⟨name, hMem, hFirst⟩)
    · exact ⟨name, List.mem_append_left _ hMem, hFirst⟩
    · exact ⟨name, List.mem_append_right _ hMem, hFirst⟩

/- An entry gives way to its own name only. -/
theorem givesWay_singleton
    {name : Text} :
    l.GivesWay [name] index entry ↔
      entry.name? = some name ∧
        ∀ e ∈ l.entries.take index, e.name? ≠ some name := by
  unfold GivesWay
  constructor
  · rintro ⟨other, hMem, hFirst⟩
    rw [List.mem_singleton] at hMem
    subst hMem
    exact hFirst
  · intro hFirst
    exact ⟨name, List.mem_singleton_self name, hFirst⟩

/- Where no name is used twice, a used name gives way. -/
theorem givesWay_of_nodup
    (hDistinct :
      (l.entries.filterMap fun e => e.name?).Nodup)
    (hEntry : l.entries[index]? = some entry)
    {name : Text}
    (hName : entry.name? = some name)
    (hMem : name ∈ names) :
    l.GivesWay names index entry := by
  refine ⟨name, hMem, hName, ?_⟩
  intro e hBefore hOther
  rcases List.getElem?_eq_some_iff.mp hEntry with
    ⟨hIndex, hEq⟩
  have hSplit :
      l.entries =
        l.entries.take index ++
          entry :: l.entries.drop (index + 1) := by
    rw [← hEq, List.cons_getElem_drop_succ,
      List.take_append_drop]
  rw [hSplit, List.filterMap_append,
    List.filterMap_cons_some hName,
    List.nodup_append] at hDistinct
  apply hDistinct.2.2 name _ name
  · exact List.mem_cons_self
  · rfl
  · exact List.mem_filterMap.mpr ⟨e, hBefore, hOther⟩

end Literal

------------------------------------------------------------
-- Replaced Entries
------------------------------------------------------------

namespace Draft

/- The entries of a literal that do not give way. -/
def remaining
    (l : Literal)
    (names : List Text) : List Part :=
  (l.entries.zipIdx.filter fun e =>
      ¬ l.GivesWay names e.2 e.1).map fun e =>
    .kept e.2 e.1

theorem keptFrom_eq
    (n : Nat)
    (entries : List Script.Entry) :
    keptFrom n entries =
      (entries.zipIdx n).map fun e => .kept e.2 e.1 := by
  induction entries generalizing n with
  | nil => rfl
  | cons entry rest ih =>
      rw [keptFrom, ih, List.zipIdx_cons, List.map_cons]

theorem remaining_nil
    (l : Literal) :
    remaining l [] = keptFrom 0 l.entries := by
  have hAll :
      (l.entries.zipIdx.filter fun e =>
        ¬ l.GivesWay [] e.2 e.1) = l.entries.zipIdx := by
    rw [List.filter_eq_self]
    intro e _
    rw [decide_eq_true_iff]
    exact Literal.not_givesWay_nil
  rw [remaining, hAll, keptFrom_eq]

theorem mem_remaining
    {l : Literal}
    {names : List Text}
    {index : Nat}
    {entry : Script.Entry} :
    .kept index entry ∈ remaining l names ↔
      l.entries[index]? = some entry ∧
        ¬ l.GivesWay names index entry := by
  unfold remaining
  constructor
  · intro hMem
    rcases List.mem_map.mp hMem with ⟨e, hFilter, hEq⟩
    rcases List.mem_filter.mp hFilter with ⟨hAt, hStays⟩
    rw [Part.kept.injEq] at hEq
    rw [← hEq.1, ← hEq.2]
    exact ⟨List.mem_zipIdx_iff_getElem?.mp hAt,
      of_decide_eq_true hStays⟩
  · rintro ⟨hEntry, hStays⟩
    apply List.mem_map.mpr
    refine ⟨(entry, index), List.mem_filter.mpr ⟨?_, ?_⟩,
      rfl⟩
    · exact List.mem_zipIdx_iff_getElem?.mpr hEntry
    · exact decide_eq_true hStays

/- Entries that do not give way to a name stay for it. -/
theorem filter_givesWay_append
    {l : Literal}
    {names : List Text}
    {name : Text}
    {es : List (Script.Entry × Nat)}
    (hStay : ∀ e ∈ es, ¬ l.GivesWay [name] e.2 e.1) :
    (es.filter fun e =>
        ¬ l.GivesWay (names ++ [name]) e.2 e.1) =
      es.filter fun e => ¬ l.GivesWay names e.2 e.1 := by
  apply List.filter_congr
  intro e hMem
  simp [Literal.givesWay_append, hStay e hMem]

/-
  Behind entries without a name, the first entry with this
  name gives way to it, and no other entry does.
-/
theorem eraseP_filter
    {l : Literal}
    {names : List Text}
    {name : Text}
    (hFresh : name ∉ names)
    {before rest : List Script.Entry}
    (hEntries : l.entries = before ++ rest)
    (hBefore : ∀ e ∈ before, e.name? ≠ some name) :
    ((rest.zipIdx before.length).filter fun e =>
        ¬ l.GivesWay names e.2 e.1).eraseP
          (fun e => e.1.name? == some name) =
      (rest.zipIdx before.length).filter fun e =>
        ¬ l.GivesWay (names ++ [name]) e.2 e.1 := by
  induction rest generalizing before with
  | nil => rfl
  | cons entry rest ih =>
      rw [List.zipIdx_cons]
      by_cases hName : entry.name? = some name
      · have hStays :
            ¬ l.GivesWay names before.length entry := by
          rintro ⟨n, hMem, hSame, _⟩
          rw [hName, Option.some.injEq] at hSame
          exact hFresh (hSame ▸ hMem)
        have hGives :
            l.GivesWay (names ++ [name]) before.length
              entry := by
          apply Literal.givesWay_append.mpr
          right
          apply Literal.givesWay_singleton.mpr
          rw [hEntries, List.take_left]
          exact ⟨hName, hBefore⟩
        rw [List.filter_cons_of_pos (by simpa using hStays),
          List.filter_cons_of_neg (by simpa using hGives),
          List.eraseP_cons_of_pos (by simpa using hName),
          filter_givesWay_append]
        -- The entry itself stands before all that follow.
        intro e hMem hGives
        have hFirst := Literal.givesWay_singleton.mp hGives
        apply hFirst.2 entry _ hName
        have hIndex := List.le_snd_of_mem_zipIdx hMem
        apply List.mem_take_iff_getElem.mpr
        refine ⟨before.length, ?_, by simp [hEntries]⟩
        simp only [hEntries, List.length_append,
          List.length_cons]
        omega
      · have hSame :
            l.GivesWay (names ++ [name]) before.length
                entry ↔
              l.GivesWay names before.length entry := by
          rw [Literal.givesWay_append,
            Literal.givesWay_singleton]
          simp [hName]
        have hAfter :
            ∀ e ∈ before ++ [entry], e.name? ≠ some name := by
          intro e hMem
          rcases List.mem_append.mp hMem with hMem | hMem
          · exact hBefore e hMem
          · rw [List.mem_singleton] at hMem
            exact hMem ▸ hName
        have hRest := ih (by simp [hEntries]) hAfter
        rw [List.length_append, List.length_singleton]
          at hRest
        by_cases hGives :
            l.GivesWay names before.length entry
        · rw [List.filter_cons_of_neg (by simpa using hGives),
            List.filter_cons_of_neg
              (by simpa using hSame.mpr hGives),
            hRest]
        · rw [List.filter_cons_of_pos (by simpa using hGives),
            List.filter_cons_of_pos
              (by simpa [hSame] using hGives),
            List.eraseP_cons_of_neg (by simpa using hName),
            hRest]

/-
  Without the first entry of a name, the entries remain
  that do not give way to this name either.
-/
theorem eraseP_remaining
    (l : Literal)
    {names : List Text}
    {name : Text}
    (hFresh : name ∉ names) :
    (remaining l names).eraseP
        (fun p => p.name? == some name) =
      remaining l (names ++ [name]) := by
  have hErase := eraseP_filter hFresh
    (List.nil_append l.entries).symm (by simp)
  unfold remaining
  rw [List.eraseP_map, ← List.length_nil, ← hErase]
  rfl

theorem parts_remove
    (d : Draft)
    (name : Text) :
    (d.remove name).parts =
      d.parts.eraseP fun p => p.name? == some name := by
  unfold remove
  split
  · rfl
  · next hNone =>
      rw [List.eraseP_of_forall_not]
      intro p hMem hName
      exact hNone (List.any_eq_true.mpr ⟨p, hMem, hName⟩)

/-
  Entries that replace those of their names, one after the
  other, stand at the end in this order.  None of them has
  the name of one that comes later, so that every name is
  looked for in the literal alone.
-/
theorem parts_foldl_replace
    (l : Literal)
    {slots : List (Text × PropNode)}
    (hDistinct : (slots.map Prod.fst).Nodup)
    (hNames :
      ∀ slot ∈ slots, ∀ name,
        slot.2.name? = some name → name = slot.1) :
    (slots.foldl
        (fun d slot => d.replace slot.1 slot.2)
        (ofLiteral l)).parts =
      remaining l (slots.map Prod.fst) ++
        slots.map fun slot => .added slot.2 := by
  induction slots using List.reverseRecOn with
  | nil =>
      rw [List.map_nil, List.map_nil, List.append_nil,
        remaining_nil]
      rfl
  | append_singleton slots slot ih =>
      rw [List.map_append, List.map_singleton,
        List.nodup_append] at hDistinct
      rcases hDistinct with ⟨hDistinct, _, hApart⟩
      have hFresh : slot.1 ∉ slots.map Prod.fst := by
        intro hMem
        exact hApart _ hMem _ List.mem_cons_self rfl
      have hOther :
          ∀ part ∈ slots.map fun s => Part.added s.2,
            ¬ (part.name? == some slot.1) = true := by
        intro part hMem hName
        rcases List.mem_map.mp hMem with ⟨s, hS, rfl⟩
        have hSame := hNames s (List.mem_append_left _ hS)
          slot.1 (eq_of_beq hName)
        apply hFresh
        rw [hSame]
        exact List.mem_map_of_mem hS
      have hParts := ih hDistinct
        (fun s hS => hNames s (List.mem_append_left _ hS))
      have hErase :
          (remaining l (slots.map Prod.fst) ++
              slots.map fun s => Part.added s.2).eraseP
                (fun p => p.name? == some slot.1) =
            remaining l (slots.map Prod.fst ++ [slot.1]) ++
              slots.map fun s => Part.added s.2 := by
        rw [← eraseP_remaining l hFresh, List.eraseP_append]
        split
        · rfl
        · next hNone =>
            rw [List.eraseP_of_forall_not hOther,
              List.eraseP_of_forall_not]
            intro part hMem hName
            exact hNone
              (List.any_eq_true.mpr ⟨part, hMem, hName⟩)
      rw [List.foldl_append, List.foldl_cons,
        List.foldl_nil, replace, add, parts_remove, hParts,
        hErase, List.map_append, List.map_append,
        List.append_assoc]
      rfl

end Draft

------------------------------------------------------------
-- Produced Entries
------------------------------------------------------------

namespace Component

/- The names of what can be generated for any component. -/
def generatedNames : List Text :=
  [scopeIdName, compiledName, moduleIdName, fileName]

/- The names of what can be generated, in order. -/
def slotNames
    (names : Names) : List Text :=
  [scopeIdName, compiledName, names.template, names.styles,
    moduleIdName, fileName]

/- The names of what is generated for a component. -/
def produced
    (c : Component)
    (f : File) : List Text :=
  (c.slots f).map Prod.fst

/- Names outside of more names are outside of fewer. -/
theorem Names.Avoid.mono
    {names : Names}
    {taken fewer : List Text}
    (hNames : names.Avoid taken)
    (hFewer : fewer ⊆ taken) :
    names.Avoid fewer where
  distinct := hNames.distinct
  template := fun hMem => hNames.template (hFewer hMem)
  styles := fun hMem => hNames.styles (hFewer hMem)

theorem nodup_slotNames
    {names : Names}
    (hNames : names.Avoid generatedNames) :
    (slotNames names).Nodup := by
  have hSwap :
      List.Perm
        ([scopeIdName, compiledName] ++
          [names.template, names.styles])
        ([names.template, names.styles] ++
          [scopeIdName, compiledName]) :=
    List.perm_append_comm
  have hPerm := hSwap.append_right [moduleIdName, fileName]
  apply hPerm.nodup_iff.mpr
  refine List.nodup_cons.mpr ⟨?_, List.nodup_cons.mpr
    ⟨hNames.styles, by decide⟩⟩
  intro hMem
  rcases List.mem_cons.mp hMem with hSame | hMem
  · exact hNames.distinct hSame
  · exact hNames.template hMem

theorem Generates.name_eq
    {c : Component}
    {f : File}
    {name other : Text}
    {prop : PropNode}
    (hGenerates : c.Generates f name prop)
    (hName : prop.name? = some other) :
    other = name := by
  cases hGenerates <;> simp_all [PropNode.name?]

/- What can be generated, each with whether it is. -/
def calledFor
    (c : Component)
    (f : File) : List (Text × Bool) :=
  [(scopeIdName, (c.fragments f).isScoped),
    (compiledName, (c.fragments f).template.isSome),
    (f.names.template, (c.fragments f).template.isSome),
    (f.names.styles, (c.fragments f).styles.isSome),
    (moduleIdName, f.settings.server),
    (fileName, !f.settings.production)]

/- What is produced is what is called for, in order. -/
theorem produced_eq
    (c : Component)
    (f : File) :
    c.produced f =
      ((c.calledFor f).filter Prod.snd).map Prod.fst := by
  have hCompiled :
      (c.fragments f).compiled =
        (c.fragments f).template.map
          fun _ => .keyValue compiledName (.bool true) := rfl
  unfold produced calledFor slots Fragments.slots
    settingSlots
  rw [scopeId_fragments, hCompiled]
  cases (c.fragments f).isScoped <;>
    cases (c.fragments f).template <;>
    cases (c.fragments f).styles <;>
    cases f.settings.server <;>
    cases f.settings.production <;>
    rfl

theorem sublist_produced
    (c : Component)
    (f : File) :
    (c.produced f).Sublist (slotNames f.names) := by
  rw [produced_eq]
  exact List.filter_sublist.map Prod.fst

/-
  A component after it was compiled.  Entries are produced
  in a fixed order, each of them where it is called for;
  they follow the entries of the literal, of which only
  those have given way that were the first of a produced
  name.
-/
structure Compiled
    (c : Component)
    (f : File) : Prop where
  order : (c.produced f).Sublist (slotNames f.names)
  scopeId :
    scopeIdName ∈ c.produced f ↔
      ∃ i ∈ c.literal.styleImports f.names.styles,
        i.isScoped = true
  compiled :
    compiledName ∈ c.produced f ↔
      ∃ path, c.literal.Imports f.names.template path
  template :
    f.names.template ∈ c.produced f ↔
      ∃ path, c.literal.Imports f.names.template path
  styles :
    f.names.styles ∈ c.produced f ↔
      c.literal.styleImports f.names.styles ≠ []
  moduleId :
    moduleIdName ∈ c.produced f ↔ f.settings.server = true
  file :
    fileName ∈ c.produced f ↔ f.settings.production = false
  generated :
    ∀ slot ∈ c.slots f, c.Generates f slot.1 slot.2
  parts :
    (c.draft f).parts =
      Draft.remaining c.literal (c.produced f) ++
        (c.slots f).map fun slot => .added slot.2
  others :
    ∀ index entry,
      c.literal.entries[index]? = some entry →
        (∀ name ∈ c.produced f, entry.name? ≠ some name) →
          .kept index entry ∈ (c.draft f).parts
  modified :
    (c.draft f).modified = true ↔ c.produced f ≠ []
  edits : c.edits? f = some [] ↔ c.produced f = []
  distinct :
    (c.literal.entries.filterMap fun e => e.name?).Nodup →
      ∀ index entry,
        .kept index entry ∈ (c.draft f).parts →
          ∀ name ∈ c.produced f, entry.name? ≠ some name

section

variable {c : Component}
variable {f : File}

theorem mem_produced
    (hNames : f.names.Avoid generatedNames)
    {name : Text}
    {isCalled : Bool}
    (hMem : (name, isCalled) ∈ c.calledFor f) :
    name ∈ c.produced f ↔ isCalled = true := by
  have hDistinct :
      ((c.calledFor f).map Prod.fst).Nodup :=
    nodup_slotNames hNames
  rw [produced_eq, List.mem_map]
  constructor
  · rintro ⟨called, hFilter, hName⟩
    rcases List.mem_filter.mp hFilter with
      ⟨hCalled, hTrue⟩
    have hSame := List.inj_on_of_nodup_map hDistinct hCalled
      hMem hName
    rw [hSame] at hTrue
    exact hTrue
  · intro hTrue
    exact ⟨_, List.mem_filter.mpr ⟨hMem, hTrue⟩, rfl⟩

theorem isScoped_fragments_iff
    (hNames : f.names.Avoid markNames) :
    (c.fragments f).isScoped = true ↔
      ∃ i ∈ c.literal.styleImports f.names.styles,
        i.isScoped = true := by
  rw [← List.any_eq_true]
  exact Bool.coe_iff_coe.mpr
    (Fragments.isScoped_ofLiteral hNames f.source
      (c.scopeId f) c.literal)

theorem template_fragments_iff
    (hNames : f.names.Avoid markNames) :
    (c.fragments f).template.isSome = true ↔
      ∃ path, c.literal.Imports f.names.template path := by
  rw [Option.isSome_iff_exists]
  exact (Fragments.coherent hNames f.source (c.scopeId f)
    c.literal).rewritten

theorem styles_fragments_iff
    (hNames : f.names.Avoid markNames) :
    (c.fragments f).styles.isSome = true ↔
      c.literal.styleImports f.names.styles ≠ [] := by
  rcases Fragments.styles_ofLiteral hNames f.source
      (c.scopeId f) c.literal with
    ⟨hNone, hKept⟩ | ⟨_, hSome, hChanged, _⟩
  · change (c.fragments f).styles = none at hKept
    simp [hKept, hNone]
  · change (c.fragments f).styles = some _ at hChanged
    simp [hChanged, hSome]

theorem parts_draft
    (hNames : f.names.Avoid generatedNames) :
    (c.draft f).parts =
      Draft.remaining c.literal (c.produced f) ++
        (c.slots f).map fun slot => .added slot.2 := by
  apply Draft.parts_foldl_replace
  · exact (nodup_slotNames hNames).sublist
      (sublist_produced c f)
  · intro slot hMem name hName
    exact (generates_of_mem_slots hMem).name_eq hName

theorem kept_mem_draft
    (hNames : f.names.Avoid generatedNames)
    {index : Nat}
    {entry : Script.Entry} :
    .kept index entry ∈ (c.draft f).parts ↔
      c.literal.entries[index]? = some entry ∧
        ¬ c.literal.GivesWay (c.produced f) index entry := by
  rw [parts_draft hNames, List.mem_append,
    Draft.mem_remaining]
  simp

/- A component is compiled as it should be. -/
theorem compiled_draft
    (hNames : f.names.Avoid generatedNames) :
    c.Compiled f := by
  have hMarks : f.names.Avoid markNames :=
    hNames.mono (by decide)
  have hModified :
      (c.draft f).modified = true ↔ c.produced f ≠ [] := by
    rw [draft_modified, produced]
    simp
  constructor
  case order => exact sublist_produced c f
  case scopeId =>
    rw [← isScoped_fragments_iff hMarks]
    exact mem_produced hNames (by simp [calledFor])
  case compiled =>
    rw [← template_fragments_iff hMarks]
    exact mem_produced hNames (by simp [calledFor])
  case template =>
    rw [← template_fragments_iff hMarks]
    exact mem_produced hNames (by simp [calledFor])
  case styles =>
    rw [← styles_fragments_iff hMarks]
    exact mem_produced hNames (by simp [calledFor])
  case moduleId =>
    exact mem_produced hNames (by simp [calledFor])
  case file =>
    rw [← Bool.not_eq_true']
    exact mem_produced hNames (by simp [calledFor])
  case generated =>
    intro slot hMem
    exact generates_of_mem_slots hMem
  case parts => exact parts_draft hNames
  case others =>
    intro index entry hEntry hOther
    apply (kept_mem_draft hNames).mpr
    refine ⟨hEntry, ?_⟩
    rintro ⟨name, hMem, hName, _⟩
    exact hOther name hMem hName
  case modified => exact hModified
  case edits =>
    constructor
    · intro hEdits
      by_contra hSome
      have hMod := hModified.mpr hSome
      unfold edits? literalEdit at hEdits
      split at hEdits
      · simp [hMod] at hEdits
      · simp [hMod] at hEdits
    · intro hNone
      apply edits?_of_not_modified
      rw [← Bool.not_eq_true, hModified, not_not]
      exact hNone
  case distinct =>
    intro hDistinct index entry hKept name hMem hName
    rcases (kept_mem_draft hNames).mp hKept with
      ⟨hEntry, hStays⟩
    exact hStays (Literal.givesWay_of_nodup hDistinct hEntry
      hName hMem)

end

------------------------------------------------------------
-- A Literal With An Entry Written Twice
------------------------------------------------------------

namespace Sample

def file : File :=
  { source := Source.ofText []
    settings :=
      { production := false
        server := true
        hotReload := true
        shortPath := "src/A.ts".toList
        decoratorName := "Component".toList
        templateName := "template".toList
        stylesName := "styles".toList }
    digest := "abc".toList
    moduleDigest := "def".toList }

/-
  A scope id, a spread, a template, another scope id and
  a scoped style.
-/
def literal : Literal :=
  let span := Span.nowhere
  { span := span
    entries :=
      [.pair span (some scopeIdName) (.bool span true),
        .other span none .spread,
        .pair span (some file.names.template)
          (.call span (.name span importName)
            [.item (.str span (some "t.html".toList))]),
        .pair span (some scopeIdName) (.bool span false),
        .pair span (some file.names.styles)
          (.object span
            [.pair span (some scopedName) (.bool span true),
              .pair span (some styleName)
                (.str span (some "a.css".toList))])] }

def component : Component :=
  { ordinal := 0
    candidate :=
      { scope := []
        name := none
        decl := default
        call := { span := Span.nowhere, arguments := [] } }
    literal := literal }

theorem avoid_names :
    file.names.Avoid generatedNames := by
  constructor
  · decide
  · decide
  · decide

end Sample

/- Of the scope ids the second one remains. -/
theorem compiled_draft_sample :
    Sample.file.names.Avoid generatedNames ∧
      Sample.component.produced Sample.file =
        slotNames Sample.file.names ∧
      Draft.remaining Sample.literal
          (Sample.component.produced Sample.file) =
        [.kept 1 (.other Span.nowhere none .spread),
          .kept 3
            (.pair Span.nowhere (some scopeIdName)
              (.bool Span.nowhere false))] ∧
      Sample.component.Compiled Sample.file := by
  refine ⟨Sample.avoid_names, rfl, ?_,
    compiled_draft Sample.avoid_names⟩
  rfl

end Component

end ComponentLoader
