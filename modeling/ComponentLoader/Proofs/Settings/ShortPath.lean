import Mathlib.Tactic
import ComponentLoader.Proofs.Files.Contents
import ComponentLoader.Proofs.Loader.Mark

/-
  Short paths tell the files of a project apart.

  The short path of a file below the root is relative, and
  it leads from the root to the file.  Any other short path
  is the absolute path of its file.  So the short path that
  two files share is of one kind, and they have the same
  components.

  Main declarations:
    * `Path.names_join_names`
    * `Context.HasRoot`
    * `Context.shortPath_cases`
    * `Context.names_eq_of_shortPath`
    * `Context.shortPath_identifies`
-/

------------------------------------------------------------
-- Joined Names
------------------------------------------------------------

namespace ComponentLoader

namespace Path

/- Names of a path put together are a relative path. -/
theorem names_join_names
    {path : Text}
    {part : List Text}
    (hPart : ∀ name ∈ part, name ∈ names path) :
    names (Text.join ['/'] part) = part ∧
      isAbsolute (Text.join ['/'] part) = false := by
  have hSlash : ∀ name ∈ part, '/' ∉ name := fun name hMem =>
    Text.not_mem_of_mem_splitAll
      (List.mem_filter.mp (hPart name hMem)).1
  have hKept : ∀ name ∈ part, isSkipped name = false := by
    intro name hMem
    simpa using (List.mem_filter.mp (hPart name hMem)).2
  constructor
  · rw [names_join_pieces hSlash, List.filter_eq_self]
    intro name hMem
    simp [hKept name hMem]
  · apply isAbsolute_join_pieces hSlash
    intro name hHead
    exact hKept name (List.mem_of_head? hHead)

/- Absolute paths are the same up to what is skipped. -/
theorem components_eq_iff
    {path other : Text}
    (hPath : isAbsolute path = true)
    (hOther : isAbsolute other = true) :
    components path = components other ↔
      names path = names other := by
  rw [components_of_isAbsolute hPath,
    components_of_isAbsolute hOther, List.cons_inj_right]

/- They lead to the same place then. -/
theorem resolve_congr
    {path other : Text}
    (hPath : isAbsolute path = true)
    (hOther : isAbsolute other = true)
    (hNames : names path = names other)
    (current : List Text) :
    resolve current path = resolve current other := by
  rw [resolve, resolve, hPath, hOther, hNames]

end Path

------------------------------------------------------------
-- Short Paths
------------------------------------------------------------

namespace Context

/- Whether a file has an absolute path, and its root is one. -/
structure HasRoot
    (c : Context)
    (root : Text) : Prop where
  root : c.root = root
  absolute : Path.isAbsolute c.path = true

section ShortPath

variable {root : Text}
variable (hRoot : Path.isAbsolute root = true)

include hRoot

/-
  A short path is what leads from the root to the file, or
  the path of a file that is not below the root.
-/
theorem shortPath_cases
    {c : Context}
    (hContext : c.HasRoot root) :
    (Path.names c.path =
          Path.names root ++ Path.names c.shortPath ∧
        Path.isAbsolute c.shortPath = false) ∨
      (¬ Path.names root <+: Path.names c.path ∧
        c.shortPath = c.path) := by
  have hRelative := Path.relativeComponents?_eq hRoot
    hContext.absolute
  rw [← hContext.root] at hRelative ⊢
  unfold shortPath
  by_cases hBelow :
      Path.names c.root <+: Path.names c.path
  · rw [if_pos hBelow] at hRelative
    rcases hBelow with ⟨rest, hNames⟩
    rw [← hNames, List.drop_left] at hRelative
    have hJoin := @Path.names_join_names c.path rest
      fun name hMem => by
        rw [← hNames]
        exact List.mem_append_right _ hMem
    rw [hRelative]
    exact Or.inl ⟨by rw [hJoin.1, hNames], hJoin.2⟩
  · rw [if_neg hBelow] at hRelative
    rw [hRelative]
    exact Or.inr ⟨hBelow, rfl⟩

/- Files with one short path have the same names. -/
theorem names_eq_of_shortPath
    {c d : Context}
    (hContext : c.HasRoot root)
    (hOther : d.HasRoot root)
    (hShort : c.shortPath = d.shortPath) :
    Path.names c.path = Path.names d.path := by
  rcases shortPath_cases hRoot hContext with
    ⟨hNames, hRelative⟩ | ⟨-, hWhole⟩
  · rcases shortPath_cases hRoot hOther with
      ⟨hNames', -⟩ | ⟨-, hWhole'⟩
    · rw [hNames, hNames', hShort]
    · -- a relative path is no absolute one
      rw [hShort, hWhole', hOther.absolute] at hRelative
      cases hRelative
  · rcases shortPath_cases hRoot hOther with
      ⟨-, hRelative'⟩ | ⟨-, hWhole'⟩
    · rw [← hShort, hWhole, hContext.absolute]
        at hRelative'
      cases hRelative'
    · rw [← hWhole, hShort, hWhole']

/- A short path below the root leads back to the file. -/
theorem components_join_shortPath
    {c : Context}
    (hContext : c.HasRoot root)
    (hBelow :
      Path.components root <+: Path.components c.path) :
    Path.components (Path.join root c.shortPath) =
      Path.components c.path := by
  rw [Path.components_of_isAbsolute hRoot,
    Path.components_of_isAbsolute hContext.absolute,
    List.cons_prefix_cons] at hBelow
  rcases shortPath_cases hRoot hContext with
    ⟨hNames, hRelative⟩ | ⟨hNone, -⟩
  · rw [Path.components_eq_iff
        (Path.isAbsolute_join_of_isAbsolute hRoot)
        hContext.absolute,
      Path.names_join hRelative, hNames]
  · exact absurd hBelow.2 hNone

/- Files at two places have two short paths. -/
theorem shortPath_ne_of_locate
    {c d : Context}
    (hContext : c.HasRoot root)
    (hOther : d.HasRoot root)
    {s : Files.Store}
    {place other : List Text}
    (hPlace : s.locate c.path = .ok place)
    (hElsewhere : s.locate d.path = .ok other)
    (hNe : place ≠ other) :
    c.shortPath ≠ d.shortPath := by
  intro hShort
  have hNames :=
    names_eq_of_shortPath hRoot hContext hOther hShort
  apply hNe
  rw [Files.Store.locate_eq hPlace,
    Files.Store.locate_eq hElsewhere]
  exact Path.resolve_congr hContext.absolute
    hOther.absolute hNames s.current

/-
  Files with the same short path have the same components,
  and a short path below the root gives them back.  It is
  the text that the digest of a file is made of in
  development, and no other file has the same.
-/
theorem shortPath_identifies
    {c d : Context}
    (hContext : c.HasRoot root)
    (hOther : d.HasRoot root) :
    (c.shortPath = d.shortPath →
        Path.components c.path = Path.components d.path) ∧
      (Path.components root <+: Path.components c.path →
        Path.components (Path.join root c.shortPath) =
          Path.components c.path) ∧
      (∀ options body,
        (Settings.resolve c options).production = false →
          (Loader.fileOf c (Settings.resolve c options)
              body).digest =
            Digest.short c.shortPath) ∧
      ∀ (s : Files.Store) place other,
        s.locate c.path = .ok place →
        s.locate d.path = .ok other →
        place ≠ other →
          c.shortPath ≠ d.shortPath := by
  refine ⟨?_, components_join_shortPath hRoot hContext,
    ?_, ?_⟩
  · intro hShort
    rw [Path.components_eq_iff hContext.absolute
      hOther.absolute]
    exact names_eq_of_shortPath hRoot hContext hOther hShort
  · intro options body hDevelopment
    exact Loader.digest_fileOf hDevelopment body
  · intro s place other hPlace hElsewhere hNe
    exact shortPath_ne_of_locate hRoot hContext hOther
      hPlace hElsewhere hNe

end ShortPath

/- A file of the project under two spellings, and another. -/
def Sample.plain : Context where
  path := "/app/src/A.ts".toList
  root := "/app".toList
  request := []

def Sample.spelled : Context :=
  { Sample.plain with path := "/app/./src//A.ts".toList }

def Sample.outside : Context :=
  { Sample.plain with path := "/src/A.ts".toList }

def Sample.store : Files.Store where
  root :=
    .dir
      [("app".toList,
        .dir [("src".toList,
          .dir [("A.ts".toList, .file none)])]),
        ("src".toList,
          .dir [("A.ts".toList, .file none)])]
  current := []

theorem shortPath_identifies_sample :
    Sample.spelled.shortPath = Sample.plain.shortPath ∧
      Path.components Sample.spelled.path =
        Path.components Sample.plain.path ∧
      Path.components (Path.join "/app".toList
          Sample.spelled.shortPath) =
        Path.components Sample.spelled.path ∧
      (Loader.fileOf Sample.plain
          (Settings.resolve Sample.plain {}) []).digest =
        Digest.short "src/A.ts".toList ∧
      Sample.plain.shortPath ≠ Sample.outside.shortPath := by
  have hRoot : Path.isAbsolute "/app".toList = true := rfl
  have hPlain : Sample.plain.HasRoot "/app".toList :=
    { root := rfl, absolute := rfl }
  have hSpelled : Sample.spelled.HasRoot "/app".toList :=
    { root := rfl, absolute := rfl }
  have hOutside : Sample.outside.HasRoot "/app".toList :=
    { root := rfl, absolute := rfl }
  have hSame :
      Sample.spelled.shortPath = Sample.plain.shortPath := by
    decide
  have hTwice :=
    shortPath_identifies hRoot hSpelled hPlain
  have hApart :=
    shortPath_identifies hRoot hPlain hOutside
  exact ⟨hSame, hTwice.1 hSame, hTwice.2.1 (by decide),
    hApart.2.2.1 {} [] rfl,
    hApart.2.2.2 Sample.store
      ["app".toList, "src".toList, "A.ts".toList]
      ["src".toList, "A.ts".toList] rfl rfl (by decide)⟩

end Context

end ComponentLoader
