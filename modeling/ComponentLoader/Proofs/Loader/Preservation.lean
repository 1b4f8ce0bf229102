import Mathlib.Tactic
import ComponentLoader.Proofs.Dict
import ComponentLoader.Proofs.Loader.Passages
import ComponentLoader.Proofs.Script.Equality

/-
  What a compiled file keeps of its source: everything but
  the literals of the components that change.

  The source is a text before the first literal, and then
  a passage for each of them.  In the code the literals
  are written anew, and a class without a name gets one if
  code for hot reload follows.

  Main declarations:
    * `Loader.Preserved`
    * `Loader.exists_preserved_compile?`
    * `Loader.exists_preserved`
-/

------------------------------------------------------------
-- Preserved Text
------------------------------------------------------------

namespace ComponentLoader

namespace Loader

/- What follows the code of a file. -/
def glueOf
    (settings : Settings)
    (table : HotReload.Table)
    (code : Text) : Text :=
  if settings.emitsHotReload && !table.isEmpty then
    (if Text.endsWith '\n' code then [] else ['\n']) ++
      HotReload.glue table
  else
    []

/-
  A file that is kept as it is from passage to passage.
  The passages are those of all components that change, in
  the order of the source; a name is inserted only if code
  for hot reload follows; and no edit is skipped.
-/
structure Preserved
    (f : File)
    (components : List Component)
    (mark : Text)
    (result : Result)
    (first : Text)
    (passages : List Passage) : Prop where
  source :
    f.source.text = first ++ passages.flatMap Passage.written
  stand : Passage.AllStand f.source first passages
  changed :
    (passages.map Passage.component).Perm
      (changed f components)
  code :
    result.code =
      mark ++ first ++
        passages.flatMap (Passage.compiled f) ++
        glueOf f.settings result.table
          (mark ++ first ++
            passages.flatMap (Passage.compiled f))
  named :
    ∀ p ∈ passages, p.component.inserted f ≠ [] →
      f.settings.emitsHotReload = true ∧
        result.table ≠ []
  applied :
    ∃ edits,
      editsOf? f components = some edits ∧
        Edit.AllApplied f.source.text.size 0
          (Edit.sort edits)

/- Glue comes after the code, on a line of its own. -/
theorem withGlue_eq
    (settings : Settings)
    (table : HotReload.Table)
    (code : Text) :
    withGlue settings table code =
      code ++ glueOf settings table code := by
  unfold withGlue glueOf endLine
  split
  · split
    · simp
    · simp
  · simp

/- A component is in the table of its file. -/
theorem name_mem_keys_tableOf
    {f : File}
    {components : List Component}
    {c : Component}
    (hMem : c ∈ components) :
    c.name f ∈ Dict.keys (tableOf f components) := by
  apply Dict.mem_keys_merge
  right
  simp only [Dict.keys, List.map_map, List.mem_map]
  exact ⟨c, hMem, rfl⟩

/- A file with a component has a table. -/
theorem tableOf_ne_nil
    {f : File}
    {components : List Component}
    {c : Component}
    (hMem : c ∈ components) :
    tableOf f components ≠ [] := by
  have hKey := name_mem_keys_tableOf (f := f) hMem
  intro hNil
  rw [hNil] at hKey
  exact absurd hKey (by simp [Dict.keys])

/- A file without components is written as it was. -/
theorem compile?_of_componentsOf_nil
    {f : File}
    {m : Script.Module}
    (hNone : componentsOf f m = [])
    (mark : Text) :
    compile? f mark m =
      some (unchanged (mark ++ f.source.text)) := by
  rw [compile?_eq_some_iff, hNone]
  refine ⟨[], f.source.text, rfl, ?_, ?_⟩
  · exact Edit.applyFrom?_nil (List.nil_append _).symm
  · simp [tableOf, Dict.ofEntries, Dict.merge, withGlue,
      unchanged]

------------------------------------------------------------
-- Compiled Files
------------------------------------------------------------

/- The code of a file that is cut into passages. -/
theorem Edited.exists_compile?
    {f : File}
    {m : Script.Module}
    {first : Text}
    {passages : List Passage}
    (hEdited : Edited f (componentsOf f m) first passages)
    (mark : Text) :
    ∃ result,
      compile? f mark m = some result ∧
        result.code =
          mark ++ first ++
            passages.flatMap (Passage.compiled f) ++
            glueOf f.settings result.table
              (mark ++ first ++
                passages.flatMap (Passage.compiled f)) := by
  refine ⟨_, compile?_eq_some_iff.mpr ⟨_, _, hEdited.told,
    hEdited.applyAll?_eq.1, rfl⟩, ?_⟩
  simp only [withGlue_eq, List.append_assoc]

/- A file is preserved if it is placed in its source. -/
theorem exists_preserved_compile?
    {f : File}
    {m : Script.Module}
    (hPlaced : m.Placed f.source)
    (mark : Text) :
    ∃ result first passages,
      compile? f mark m = some result ∧
        Preserved f (componentsOf f m) mark result first
          passages := by
  rcases exists_edited hPlaced with
    ⟨first, passages, hEdited⟩
  rcases hEdited.exists_compile? mark with
    ⟨result, hResult, hCode⟩
  refine ⟨result, first, passages, hResult, hEdited.text,
    hEdited.stand.allStand, hEdited.changed, hCode, ?_,
    _, hEdited.told, hEdited.applyAll?_eq.2⟩
  intro p hMem hInserted
  have hName : p.component.getsName f = true := by
    by_contra hOther
    rw [Bool.not_eq_true] at hOther
    exact hInserted (by simp [Component.inserted, hOther])
  have hChanged :=
    hEdited.changed.mem_iff.mp (List.mem_map_of_mem hMem)
  unfold Component.getsName at hName
  rw [Bool.and_eq_true] at hName
  refine ⟨hName.2, ?_⟩
  rw [table_of_compile? hResult]
  exact tableOf_ne_nil (List.mem_filter.mp hChanged).1

/- A file that is placed in its source is cut cleanly. -/
theorem cutsCleanly_of_placed
    {f : File}
    {m : Script.Module}
    (hPlaced : m.Placed f.source) :
    CutsCleanly f (componentsOf f m) := by
  rcases exists_preserved_compile? hPlaced [] with
    ⟨result, _, _, hResult, _⟩
  exact exists_compile?_iff.mp ⟨result, hResult⟩

theorem splitMark_append
    (source : Text) :
    (splitMark source).1 ++ (splitMark source).2 =
      source := by
  cases source with
  | nil => rfl
  | cons c cs =>
      rw [splitMark]
      split
      · rfl
      · rfl

/-
  Every file that is parsed is compiled, and preserved but
  for the literals of its components, if the parser places
  what it finds in the text after the byte order mark.
-/
theorem exists_preserved
    {source : Text}
    {context : Context}
    {options : Options}
    {m : Script.Module}
    (hOptions : options.fault? = none)
    (hMentioned :
      Text.occursIn
          (Settings.resolve context options).decoratorName
          source = true)
    (hParsed :
      Script.parse (Dialect.ofPath context.path)
          (splitMark source).2 = .ok m)
    (hPlaced :
      m.Placed (Source.ofText (splitMark source).2)) :
    ∃ result first passages,
      transform source context options =
          some (.ok result) ∧
        (splitMark source).1 ++ (splitMark source).2 =
          source ∧
        Preserved
          (fileOf context (Settings.resolve context options)
            (splitMark source).2)
          (Component.ofCandidates
            (Candidate.ofModule options.decoratorName m))
          (splitMark source).1 result first passages := by
  let f := fileOf context (Settings.resolve context options)
    (splitMark source).2
  have hFile : m.Placed f.source := hPlaced
  rcases exists_preserved_compile? hFile (splitMark source).1
    with ⟨result, first, passages, hResult, hPreserved⟩
  refine ⟨result, first, passages, ?_,
    splitMark_append source, hPreserved⟩
  rw [transform_of_ok hOptions hMentioned hParsed, hResult,
    Option.map_some]

------------------------------------------------------------
-- A Class Without A Name
------------------------------------------------------------

namespace Sample

def source : Text :=
  "export default@C({})class{}".toList

def context : Context :=
  { path := "/app/A.js".toList
    root := "/app".toList
    request := [] }

def options : Options :=
  { decoratorName := ['C'] }

def tree : Script.Module where
  items :=
    [.mk
      (.exportDefault none
        { lo := 21
          decorators :=
            [{ value :=
                 .call { lo := 16, hi := 21 }
                   (.name { lo := 16, hi := 17 } ['C'])
                   [.item
                     (.object { lo := 18, hi := 20 } [])]
               hi := 21 }] })
      []]

theorem placed_tree :
    tree.Placed (Source.ofText source) := by
  have hLiteral :
      (Source.ofText source).Holds { lo := 18, hi := 20 } :=
    ⟨source.take 17, ['{', '}'], source.drop 19, by decide,
      by decide, by decide⟩
  apply Script.Module.placed_singleton { lo := 1, hi := 28 }
  apply Script.Item.placed_of_shape
  refine ⟨⟨source.take 20, source.drop 20, by decide,
    by decide⟩, by decide, ?_, source.take 20, ['{', '}'],
    by decide, ⟨by decide, by decide⟩, by decide, ?_,
    by decide⟩
  · rw [List.forall_mem_singleton]
    exact Script.Decorator.placed_call
      ⟨source.take 20, source.drop 20, by decide, by decide⟩
      (by unfold Span.Inside; decide)
      (by unfold Span.Inside; decide) hLiteral
  · rw [List.forall_mem_singleton]
    decide

end Sample

theorem exists_preserved_sample :
    ∃ result first passages,
      transform Sample.source Sample.context
          Sample.options = some (.ok result) ∧
        (splitMark Sample.source).1 ++
            (splitMark Sample.source).2 =
          Sample.source ∧
        Preserved
          (fileOf Sample.context
            (Settings.resolve Sample.context Sample.options)
            (splitMark Sample.source).2)
          (Component.ofCandidates
            (Candidate.ofModule Sample.options.decoratorName
              Sample.tree))
          (splitMark Sample.source).1 result first
          passages := by
  have hParsed :
      Script.parse (Dialect.ofPath Sample.context.path)
          (splitMark Sample.source).2 =
        .ok Sample.tree :=
    by decide +kernel
  exact exists_preserved (by rfl) (by decide) hParsed
    Sample.placed_tree

end Loader

end ComponentLoader
