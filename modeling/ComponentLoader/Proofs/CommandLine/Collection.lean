import Mathlib.Tactic
import ComponentLoader.Proofs.CommandLine.Collected
import ComponentLoader.Proofs.Files.Listing

/-
  What a list of paths is expanded to.

  A file stands for itself, and a directory for the sources
  below it: the files with one of some extensions, except
  those in directories that are passed over.  They are in
  the order of their paths from the directory, compared name
  by name and byte by byte.

  Main declarations:
    * `CommandLine.SourcesBelow`
    * `CommandLine.StandsFor`
    * `CommandLine.find?_pathBelow`
    * `CommandLine.sourcesBelow_of_find?`
    * `CommandLine.exists_standsFor`
    * `CommandLine.collects_sources`
-/

------------------------------------------------------------
-- Files Below A Directory
------------------------------------------------------------

namespace ComponentLoader

namespace CommandLine

open Files (Store Tree)

/- Whether a path leads neither to a file nor a directory. -/
def IsMissing
    (s : Store)
    (path : Text) : Prop :=
  s.isFile path = false ∧ s.isDir path = false

/- Whether a file is one that names below a directory lead to. -/
def IsBelow
    (s : Store)
    (dir file : Text) : Prop :=
  s.isFile file = true ∧
    ∃ names, (∀ name ∈ names, Path.IsName name) ∧
      file = pathBelow dir names

/- Whether a file is called like a source. -/
def HasSourceExtension
    (file : Text) : Prop :=
  ∃ extension ∈ sourceExtensions,
    Path.extension? file = some extension

/-
  Whether a file is passed over: the path to it from the
  directory that is listed has a component of that name.
-/
def IsPassedOver
    (dir file : Text) : Prop :=
  ∃ names,
    Path.relativeComponents? dir file = some names ∧
      skippedName ∈ names

/- Whether a file comes before another one of a directory. -/
def RelativeLt
    (dir file other : Text) : Prop :=
  ∃ names others,
    Path.relativeComponents? dir file = some names ∧
      Path.relativeComponents? dir other = some others ∧
      Files.NamesLt names others

/- The sources below a directory, each once and in order. -/
structure SourcesBelow
    (s : Store)
    (dir : Text)
    (found : List Text) : Prop where
  mem_iff : ∀ file, file ∈ found ↔
    IsBelow s dir file ∧ HasSourceExtension file ∧
      ¬ IsPassedOver dir file
  once : found.Nodup
  ordered : found.Pairwise (RelativeLt dir)

/- What a path stands for: a file, or what is below it. -/
inductive StandsFor
    (s : Store)
    (path : Text) : List Text → Prop where
  | file
      (hFile : s.isFile path = true) :
      StandsFor s path [path]
  | dir
      {found : List Text}
      (hDir : s.isDir path = true)
      (hFound : SourcesBelow s path found) :
      StandsFor s path found

------------------------------------------------------------
-- Names Below A Directory
------------------------------------------------------------

section Below

variable {s : Store}
variable {dir : Text}
variable {names : List Text}

/- Below a path is what names lead to from where it leads. -/
theorem find?_pathBelow
    (hSome : dir ≠ [])
    (hNames : ∀ name ∈ names, Path.IsName name) :
    s.find? (pathBelow dir names) =
      (s.find? dir).bind fun t => t.at? names := by
  induction names generalizing dir with
  | nil => exact (Option.bind_fun_some _).symm
  | cons name names ih =>
      have hName := hNames name List.mem_cons_self
      have hJoin := Path.join_ne_nil hSome
        (Path.isAbsolute_of_isName hName)
      have hRest := ih hJoin fun other hOther =>
        hNames other (List.mem_cons_of_mem name hOther)
      change s.find? (pathBelow (Path.join dir name) names) =
        _
      rw [hRest, Store.find?_join hSome hName,
        Option.bind_assoc]
      simp only [Tree.at?_cons]

variable (hNames : ∀ name ∈ names, Path.IsName name)

include hNames

theorem components_pathBelow
    (hSome : dir ≠ []) :
    Path.components (pathBelow dir names) =
      Path.components dir ++ names := by
  induction names generalizing dir with
  | nil => exact (List.append_nil _).symm
  | cons name names ih =>
      have hName := hNames name List.mem_cons_self
      have hRest := ih
        (fun other hOther =>
          hNames other (List.mem_cons_of_mem name hOther))
        (Path.join_ne_nil hSome
          (Path.isAbsolute_of_isName hName))
      change Path.components
        (pathBelow (Path.join dir name) names) = _
      rw [hRest, Path.components_join hSome hName,
        List.append_assoc, List.singleton_append]

/- The names are the path from the directory. -/
theorem relativeComponents?_pathBelow
    (hSome : dir ≠ []) :
    Path.relativeComponents? dir (pathBelow dir names) =
      some names := by
  unfold Path.relativeComponents?
  rw [components_pathBelow hNames hSome]
  simp

/- A path below a directory ends with the last name. -/
theorem extension?_pathBelow
    {last : Text}
    (hLast : names.getLast? = some last) :
    Path.extension? (pathBelow dir names) =
      Path.extension? last := by
  have hName := hNames last (List.mem_of_getLast? hLast)
  have hFile :
      Path.fileName? (pathBelow dir names) = some last := by
    rw [Path.fileName?_eq_some_iff,
      names_pathBelow hNames dir, List.getLast?_append,
      hLast]
    exact ⟨rfl, hName.2.2⟩
  have hSame : Path.fileName? last = some last := by
    rw [Path.fileName?_eq_some_iff,
      Path.names_of_isName hName]
    exact ⟨rfl, hName.2.2⟩
  rw [Path.extension?, Path.extension?, hFile, hSame]

theorem isSource_iff
    (hDir : dir ≠ [])
    (hSome : names ≠ []) :
    isSource names = true ↔
      HasSourceExtension (pathBelow dir names) ∧
        ¬ IsPassedOver dir (pathBelow dir names) := by
  have hLast := List.getLast?_eq_some_getLast hSome
  have hExtension :=
    @extension?_pathBelow dir names hNames _ hLast
  have hRelative :=
    relativeComponents?_pathBelow hNames hDir
  have hPassed :
      IsPassedOver dir (pathBelow dir names) ↔
        skippedName ∈ names := by
    simp [IsPassedOver, hRelative]
  have hCalled :
      HasSourceExtension (pathBelow dir names) ↔
        (Path.extension? (names.getLast hSome)).any
          sourceExtensions.contains = true := by
    rw [HasSourceExtension, hExtension]
    cases Path.extension? (names.getLast hSome) with
    | none => simp
    | some extension => simp
  rw [hPassed, hCalled, isSource, hLast]
  simp [and_comm]

/- The files below a directory are those of its listing. -/
theorem isFile_pathBelow_iff
    (hDir : dir ≠ [])
    {t : Tree}
    (hFind : s.find? dir = some t)
    (hDistinct : t.Distinct) :
    s.isFile (pathBelow dir names) = true ↔
      names ∈ t.listing := by
  rw [Store.isFile, find?_pathBelow hDir hNames, hFind,
    Option.bind_some, Tree.mem_listing_iff hDistinct]
  cases t.at? names with
  | none => simp
  | some below =>
      cases below with
      | file content => simp [Tree.isFile]
      | dir children => simp [Tree.isFile]

omit hNames in
/- They are in the order of their names. -/
theorem pairwise_pathBelow
    {t : Tree}
    (hNamed : t.Named)
    (hDistinct : t.Distinct)
    (hDir : dir ≠ []) :
    (t.listing.map (pathBelow dir)).Pairwise
      (RelativeLt dir) := by
  rw [List.pairwise_map]
  refine List.Pairwise.imp_of_mem ?_
    (Tree.pairwise_listing hDistinct)
  intro names others hMem hOthers hLess
  have hFirst := relativeComponents?_pathBelow
    (fun name => Tree.isName_of_mem_listing hNamed hMem) hDir
  have hSecond := relativeComponents?_pathBelow
    (fun name => Tree.isName_of_mem_listing hNamed hOthers)
    hDir
  exact ⟨names, others, hFirst, hSecond, hLess⟩

end Below

------------------------------------------------------------
-- Listed Paths
------------------------------------------------------------

section Listed

variable {s : Store}
variable (hNamed : s.root.Named)
variable (hDistinct : s.root.Distinct)

include hNamed hDistinct

/- A directory stands for the sources below it. -/
theorem sourcesBelow_of_find?
    {dir : Text}
    {children : List (Text × Tree)}
    (hFind : s.find? dir = some (.dir children)) :
    SourcesBelow s dir
      (((Tree.dir children).listing.filter isSource).map
        (pathBelow dir)) := by
  rcases Store.exists_at?_of_find? hFind with ⟨place, hAt⟩
  have hDir := Store.ne_nil_of_find? hFind
  have hTree := Tree.named_at? hNamed hAt
  have hOnce := Tree.distinct_at? hDistinct hAt
  have hOrdered :=
    (pairwise_pathBelow hTree hOnce hDir).sublist
      ((List.filter_sublist (p := isSource)).map _)
  refine
    { mem_iff := ?_
      once := hOrdered.imp ?_
      ordered := hOrdered }
  · intro file
    rw [List.mem_map]
    constructor
    · rintro ⟨names, hMem, rfl⟩
      rcases List.mem_filter.mp hMem with ⟨hMem, hSource⟩
      have hProper : ∀ name ∈ names, Path.IsName name :=
        fun name => Tree.isName_of_mem_listing hTree hMem
      have hFile := (isFile_pathBelow_iff hProper hDir hFind
        hOnce).mpr hMem
      exact ⟨⟨hFile, names, hProper, rfl⟩,
        (isSource_iff hProper hDir
          (Tree.ne_nil_of_mem_listing hMem)).mp hSource⟩
    · rintro ⟨⟨hFile, names, hProper, rfl⟩, hSource⟩
      have hMem := (isFile_pathBelow_iff hProper hDir hFind
        hOnce).mp hFile
      exact ⟨names, List.mem_filter.mpr ⟨hMem,
        (isSource_iff hProper hDir
          (Tree.ne_nil_of_mem_listing hMem)).mpr hSource⟩, rfl⟩
  · rintro file other ⟨names, others, hFile, hOther, hLess⟩ rfl
    rw [hFile] at hOther
    cases hOther
    exact Files.not_namesLt_self names hLess

/- A path that leads somewhere stands for files. -/
theorem exists_standsFor
    {path : Text}
    (hThere : ¬ IsMissing s path) :
    ∃ found,
      collectPath s path = .ok found ∧
        StandsFor s path found := by
  unfold IsMissing Store.isFile Store.isDir at hThere
  unfold collectPath
  cases hFind : s.find? path with
  | none => simp [hFind] at hThere
  | some t =>
      cases t with
      | file content =>
          have hFile : s.isFile path = true := by
            rw [Store.isFile, hFind]
            rfl
          exact ⟨[path], rfl, .file hFile⟩
      | dir children =>
          have hDir : s.isDir path = true := by
            rw [Store.isDir, hFind]
            rfl
          exact ⟨_, rfl, .dir hDir
            (sourcesBelow_of_find? hNamed hDistinct hFind)⟩

/- Paths stand for files one after another. -/
theorem exists_collect
    {paths : List Text}
    (hThere : ∀ path ∈ paths, ¬ IsMissing s path) :
    ∃ groups,
      collect s paths = .ok groups.flatten ∧
        List.Forall₂ (StandsFor s) paths groups := by
  induction paths with
  | nil => exact ⟨[], rfl, .nil⟩
  | cons path rest ih =>
      rw [List.forall_mem_cons] at hThere
      rcases exists_standsFor hNamed hDistinct hThere.1 with
        ⟨found, hFound, hStands⟩
      rcases ih hThere.2 with
        ⟨groups, hGroups, hAll⟩
      refine ⟨found :: groups, ?_, .cons hStands hAll⟩
      rw [collect, hFound]
      simp only
      rw [hGroups]
      rfl

end Listed

/- Nothing is collected if a path leads nowhere. -/
theorem exists_collect_error_iff
    {s : Store}
    {paths : List Text} :
    (∃ e, collect s paths = .error e) ↔
      ∃ path ∈ paths, IsMissing s path := by
  constructor
  · rintro ⟨e, hError⟩
    rcases exists_of_collect_error hError with
      ⟨path, hMem, hPath⟩
    exact ⟨path, hMem, (collectPath_error_iff.mp hPath).2⟩
  · rintro ⟨path, hMem, hMissing⟩
    cases hFiles : collect s paths with
    | error e => exact ⟨e, rfl⟩
    | ok files =>
        exact absurd
          (collectPath_error_iff.mpr ⟨rfl, hMissing⟩)
          (collectPath_ne_error_of_collect hFiles hMem)

/-
  Collecting files fails if and only if a path leads
  neither to a file nor to a directory.  Otherwise it gives
  what each path stands for, in the order of the paths.
-/
theorem collects_sources
    {s : Store}
    (hNamed : s.root.Named)
    (hDistinct : s.root.Distinct)
    (current : Text)
    (paths : List Text) :
    ((∃ e, collect s (paths.map (Path.join current)) =
          .error e) ↔
        ∃ path ∈ paths,
          IsMissing s (Path.join current path)) ∧
      ((∀ path ∈ paths,
          ¬ IsMissing s (Path.join current path)) →
        ∃ groups,
          collect s (paths.map (Path.join current)) =
              .ok groups.flatten ∧
            List.Forall₂
              (fun path found =>
                StandsFor s (Path.join current path) found)
              paths groups) := by
  constructor
  · rw [exists_collect_error_iff]
    simp
  · intro hThere
    have hAll := exists_collect hNamed hDistinct
      (List.forall_mem_map.mpr hThere)
    simpa only [List.forall₂_map_left_iff] using hAll

/- A directory with sources at several depths, and a file. -/
def Listed.sources : List (Text × Tree) :=
  [("b.ts".toList, .file none),
    ("a.ts".toList, .file none),
    ("a".toList, .dir [("z.js".toList, .file none)]),
    ("node_modules".toList,
      .dir [("x.ts".toList, .file none)])]

def Listed.store : Store where
  root :=
    .dir
      [("w".toList,
        .dir
          [("src".toList, .dir sources),
            ("n.txt".toList, .file none)])]
  current := ["w".toList]

def Listed.paths : List Text :=
  ["src".toList, "n.txt".toList]

theorem Listed.named_and_distinct :
    store.root.Named ∧ store.root.Distinct := by
  have hFile :
      (Tree.file none).Named ∧ (Tree.file none).Distinct :=
    ⟨.file none, .file none⟩
  have hSources :
      (Tree.dir sources).Named ∧
        (Tree.dir sources).Distinct := by
    apply Tree.named_and_distinct_dir (by decide) (by decide)
    unfold sources
    simp only [List.forall_mem_cons, List.not_mem_nil,
      IsEmpty.forall_iff, implies_true, and_true]
    refine ⟨hFile, hFile, ?_, ?_⟩ <;>
    · apply Tree.named_and_distinct_dir (by decide)
        (by decide)
      rwa [List.forall_mem_singleton]
  apply Tree.named_and_distinct_dir (by decide) (by decide)
  rw [List.forall_mem_singleton]
  apply Tree.named_and_distinct_dir (by decide) (by decide)
  rw [List.forall_mem_cons, List.forall_mem_singleton]
  exact ⟨hSources, hFile⟩

theorem collects_sources_sample :
    (∃ groups,
        collect Listed.store
            (Listed.paths.map (Path.join "/w".toList)) =
            .ok groups.flatten ∧
          List.Forall₂
            (fun path found =>
              StandsFor Listed.store
                (Path.join "/w".toList path) found)
            Listed.paths groups) ∧
      collect Listed.store
          (Listed.paths.map (Path.join "/w".toList)) =
        .ok
          ["/w/src/a/z.js".toList, "/w/src/a.ts".toList,
            "/w/src/b.ts".toList, "/w/n.txt".toList] := by
  have hThere : ∀ path ∈ Listed.paths,
      ¬ IsMissing Listed.store
        (Path.join "/w".toList path) := by
    unfold IsMissing
    decide
  exact
    ⟨(collects_sources Listed.named_and_distinct.1
        Listed.named_and_distinct.2 "/w".toList
        Listed.paths).2 hThere,
      rfl⟩

end CommandLine

end ComponentLoader
