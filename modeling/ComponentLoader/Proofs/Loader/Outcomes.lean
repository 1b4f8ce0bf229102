import Mathlib.Tactic
import ComponentLoader.Loader
import ComponentLoader.Proofs.Edit.Splicing

/-
  What the loader comes to, stage by stage.  A file has a
  result, is refused, or has the loader aborted: this is so
  just if the text is cut inside a character, where a name
  is looked for or where an edit is made.

  Main declarations:
    * `Component.nameEdit?_eq_none_iff`
    * `Loader.CutsCleanly`
    * `Loader.compile?_eq_some_iff`
    * `Loader.exists_compile?_iff`
    * `Loader.transform_eq_none_iff`
-/

------------------------------------------------------------
-- Edits That Cannot Be Told
------------------------------------------------------------

namespace ComponentLoader

namespace Component

variable {c : Component}
variable {f : File}

/- Whether a component gets a name for hot reload. -/
def getsName
    (c : Component)
    (f : File) : Bool :=
  c.candidate.name.isNone && f.settings.emitsHotReload

/- Where the text is cut to look for a keyword. -/
def searchStart
    (c : Component)
    (f : File) : Nat :=
  f.source.offset (keywordStart c.candidate.decl)

theorem nameEdit?_eq_none_iff :
    c.nameEdit? f = none ↔
      ¬ f.source.text.HasCut (c.searchStart f) := by
  rw [Text.hasCut_iff, searchStart]
  unfold nameEdit?
  simp only
  split
  · next hSplit => simp [hSplit]
  · next before rest hSplit =>
      rw [hSplit]
      split
      · simp
      · simp

theorem edits?_eq_none_iff :
    c.edits? f = none ↔
      c.getsName f = true ∧
        ¬ f.source.text.HasCut (c.searchStart f) := by
  rw [← nameEdit?_eq_none_iff]
  unfold edits? getsName
  split
  · next hName => simp [hName]
  · next hName => simp [hName]

end Component

namespace Loader

/- The decorated classes of a file. -/
def candidatesOf
    (f : File)
    (m : Script.Module) : List Candidate :=
  Candidate.ofModule f.settings.decoratorName m

/- The components of a file. -/
def componentsOf
    (f : File)
    (m : Script.Module) : List Component :=
  Component.ofCandidates (candidatesOf f m)

theorem editsOf?_eq_none_iff
    {f : File}
    {components : List Component} :
    editsOf? f components = none ↔
      ∃ c ∈ components, c.edits? f = none := by
  induction components with
  | nil => simp [editsOf?]
  | cons c cs ih =>
      rw [List.exists_mem_cons_iff, ← ih, editsOf?]
      cases c.edits? f with
      | none => simp
      | some edits =>
          cases editsOf? f cs with
          | none => simp
          | some more => simp

------------------------------------------------------------
-- Compiled Files
------------------------------------------------------------

section Files

variable {f : File}
variable {mark : Text}
variable {m : Script.Module}

/-
  Whether the text of a file is cut between characters
  only: where names are looked for, and by the edits that
  are applied.
-/
structure CutsCleanly
    (f : File)
    (components : List Component) : Prop where
  searched :
    ∀ c ∈ components, c.getsName f = true →
      f.source.text.HasCut (c.searchStart f)
  applied :
    ∀ edits, editsOf? f components = some edits →
      ∀ e ∈ Edit.chosen f.source.text.size (Edit.sort edits),
        e.OnCuts f.source.text

/- What a file is compiled to, if it is. -/
theorem compile?_eq_some_iff
    {result : Result} :
    compile? f mark m = some result ↔
      ∃ edits code,
        editsOf? f (componentsOf f m) = some edits ∧
          Edit.applyAll? f.source.text edits = some code ∧
          { code :=
              withGlue f.settings
                (tableOf f (componentsOf f m)) (mark ++ code)
            table := tableOf f (componentsOf f m) } =
            result := by
  have hComponents :
      Component.ofCandidates
          (Candidate.ofModule f.settings.decoratorName m) =
        componentsOf f m := rfl
  unfold compile?
  simp only [hComponents]
  cases editsOf? f (componentsOf f m) with
  | none => simp
  | some edits => simp

/- A file is compiled just if it is cut cleanly. -/
theorem exists_compile?_iff :
    (∃ result, compile? f mark m = some result) ↔
      CutsCleanly f (componentsOf f m) := by
  constructor
  · rintro ⟨result, hResult⟩
    rcases compile?_eq_some_iff.mp hResult with
      ⟨edits, code, hEdits, hCode, _⟩
    refine ⟨?_, ?_⟩
    · intro c hMem hName
      by_contra hCut
      have hNone := editsOf?_eq_none_iff.mpr
        ⟨c, hMem,
          Component.edits?_eq_none_iff.mpr ⟨hName, hCut⟩⟩
      rw [hEdits] at hNone
      cases hNone
    · intro other hOther
      cases hEdits.symm.trans hOther
      exact Edit.exists_applyAll?_iff.mp ⟨code, hCode⟩
  · intro hClean
    cases hEdits : editsOf? f (componentsOf f m) with
    | none =>
        rcases editsOf?_eq_none_iff.mp hEdits with
          ⟨c, hMem, hNone⟩
        rcases Component.edits?_eq_none_iff.mp hNone with
          ⟨hName, hCut⟩
        exact absurd (hClean.searched c hMem hName) hCut
    | some edits =>
        rcases Edit.exists_applyAll?_iff.mpr
            (hClean.applied edits hEdits) with
          ⟨code, hCode⟩
        exact ⟨_, compile?_eq_some_iff.mpr
          ⟨edits, code, hEdits, hCode, rfl⟩⟩

theorem compile?_eq_none_iff :
    compile? f mark m = none ↔
      ¬ CutsCleanly f (componentsOf f m) := by
  rw [← exists_compile?_iff,
    Option.eq_none_iff_forall_ne_some, not_exists]

/- The table of a file does not depend on its code. -/
theorem table_of_compile?
    {result : Result}
    (hResult : compile? f mark m = some result) :
    result.table = tableOf f (componentsOf f m) := by
  rcases compile?_eq_some_iff.mp hResult with
    ⟨_, _, _, _, rfl⟩
  rfl

end Files

------------------------------------------------------------
-- Transformed Files
------------------------------------------------------------

section Transformed

variable {source : Text}
variable {context : Context}
variable {options : Options}
variable {settings : Settings}

theorem parsed_of_error
    {e : Script.SyntaxError}
    (hParse :
      Script.parse (Dialect.ofPath context.path)
        (splitMark source).2 = .error e) :
    parsed source context settings =
      some (.error (.malformed context.path e)) := by
  unfold parsed
  simp only [hParse]

/- A file is compiled if what follows its mark is parsed. -/
theorem parsed_of_ok
    {m : Script.Module}
    (hParse :
      Script.parse (Dialect.ofPath context.path)
        (splitMark source).2 = .ok m) :
    parsed source context settings =
      (compile?
        (fileOf context settings (splitMark source).2)
        (splitMark source).1 m).map .ok := by
  unfold parsed
  simp only [hParse]

theorem transform_of_fault?
    (hOptions : options.fault? = none) :
    transform source context options =
      if Text.occursIn options.decoratorName source then
        parsed source context
          (Settings.resolve context options)
      else
        some (.ok (unchanged source)) := by
  unfold transform
  rw [hOptions]
  rfl

/- A file that mentions the decorator is compiled. -/
theorem transform_of_ok
    {m : Script.Module}
    (hOptions : options.fault? = none)
    (hMentioned :
      Text.occursIn options.decoratorName source = true)
    (hParse :
      Script.parse (Dialect.ofPath context.path)
        (splitMark source).2 = .ok m) :
    transform source context options =
      (compile?
        (fileOf context (Settings.resolve context options)
          (splitMark source).2)
        (splitMark source).1 m).map .ok := by
  rw [transform_of_fault? hOptions, if_pos hMentioned,
    parsed_of_ok hParse]

/-
  The loader is aborted on a file just if the file is to be
  compiled and is not cut cleanly.
-/
theorem transform_eq_none_iff :
    transform source context options = none ↔
      ∃ m,
        options.fault? = none ∧
          Text.occursIn options.decoratorName source = true ∧
          Script.parse (Dialect.ofPath context.path)
            (splitMark source).2 = .ok m ∧
          let f := fileOf context
            (Settings.resolve context options)
            (splitMark source).2
          ¬ CutsCleanly f (componentsOf f m) := by
  cases hOptions : options.fault? with
  | some fault =>
      unfold transform
      rw [hOptions]
      simp
  | none =>
      rw [transform_of_fault? hOptions]
      split
      · next hOccurs =>
          cases hParse :
              Script.parse (Dialect.ofPath context.path)
                (splitMark source).2 with
          | error e => simp [parsed_of_error hParse]
          | ok m =>
              rw [parsed_of_ok hParse, Option.map_eq_none_iff,
                compile?_eq_none_iff]
              simp [hOccurs]
      · next hOccurs => simp [hOccurs]

end Transformed

end Loader

end ComponentLoader
