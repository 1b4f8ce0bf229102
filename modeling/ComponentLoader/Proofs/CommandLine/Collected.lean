import Mathlib.Tactic
import ComponentLoader.Proofs.CommandLine.Account
import ComponentLoader.Proofs.Files.Contents
import ComponentLoader.Proofs.Files.Named

/-
  Which files a run collects.  Their paths are absolute,
  and where there are no two dots in the arguments, there
  are none in the paths of the files.

  Main declarations:
    * `CommandLine.exists_of_mem_collect`
    * `CommandLine.exists_of_collectPath`
    * `CommandLine.isAbsolute_of_mem_collect`
    * `CommandLine.not_mem_names_of_mem_collect`
-/

------------------------------------------------------------
-- Collected Files
------------------------------------------------------------

namespace ComponentLoader

namespace CommandLine

open Files (Store Tree)

section Collected

variable {s : Store}
variable {path : Text}

theorem exists_of_mem_collect
    {paths files : List Text}
    (hCollect : collect s paths = .ok files)
    (hMem : path ∈ files) :
    ∃ given ∈ paths, ∃ found,
      collectPath s given = .ok found ∧ path ∈ found := by
  induction paths generalizing files with
  | nil =>
      cases hCollect
      cases hMem
  | cons first paths ih =>
      unfold collect at hCollect
      split at hCollect
      · cases hCollect
      · next found hFound =>
          split at hCollect
          · cases hCollect
          · next more hMore =>
              cases hCollect
              rcases List.mem_append.mp hMem with hMem | hMem
              · exact ⟨first, List.mem_cons_self, found,
                  hFound, hMem⟩
              · rcases ih hMore hMem with
                  ⟨given, hGiven, hRest⟩
                exact ⟨given,
                  List.mem_cons_of_mem first hGiven, hRest⟩

/- What a path stands for: itself, or what is below it. -/
theorem exists_of_collectPath
    {found : List Text}
    (hFound : collectPath s path = .ok found)
    {file : Text}
    (hMem : file ∈ found) :
    (file = path ∧
        ∃ content, s.find? path = some (.file content)) ∨
      ∃ children names,
        s.find? path = some (.dir children) ∧
          names ∈ (Tree.dir children).listing ∧
          file = pathBelow path names := by
  unfold collectPath at hFound
  split at hFound
  · next content hFile =>
      cases hFound
      rw [List.mem_singleton] at hMem
      exact Or.inl ⟨hMem, content, hFile⟩
  · next children hDir =>
      cases hFound
      rcases List.mem_map.mp hMem with ⟨names, hNames, rfl⟩
      exact Or.inr ⟨children, names, hDir,
        List.mem_of_mem_filter hNames, rfl⟩
  · cases hFound

theorem isAbsolute_absolutePath
    (s : Store)
    (path : Text) :
    Path.isAbsolute (absolutePath s path) = true :=
  Path.isAbsolute_join_of_isAbsolute rfl

theorem isAbsolute_rootPath
    (s : Store)
    (root : Option Text) :
    Path.isAbsolute (rootPath s root) = true := by
  cases root with
  | none => rfl
  | some root => exact isAbsolute_absolutePath s root

theorem isAbsolute_pathBelow
    {dir : Text}
    (hDir : Path.isAbsolute dir = true)
    (names : List Text) :
    Path.isAbsolute (pathBelow dir names) = true := by
  unfold pathBelow
  induction names generalizing dir with
  | nil => exact hDir
  | cons name names ih =>
      exact ih (Path.isAbsolute_join_of_isAbsolute hDir)

/- All files of a run have absolute paths. -/
theorem isAbsolute_of_mem_collect
    {paths files : List Text}
    (hCollect :
      collect s (paths.map (absolutePath s)) = .ok files)
    (hMem : path ∈ files) :
    Path.isAbsolute path = true := by
  rcases exists_of_mem_collect hCollect hMem with
    ⟨given, hGiven, found, hFound, hPath⟩
  rcases List.mem_map.mp hGiven with ⟨written, _, rfl⟩
  have hAbsolute := isAbsolute_absolutePath s written
  rcases exists_of_collectPath hFound hPath with
    ⟨rfl, _⟩ | ⟨children, names, _, _, rfl⟩
  · exact hAbsolute
  · exact isAbsolute_pathBelow hAbsolute names

theorem names_currentPath
    (hStore : s.WellFormed) :
    Path.names (currentPath s) = s.current := by
  have hSlash : ∀ name ∈ s.current, '/' ∉ name :=
    fun name hName => (hStore.current name hName).1
  have hKept :
      (s.current.filter fun name =>
        !Path.isSkipped name) = s.current := by
    rw [List.filter_eq_self]
    intro name hName
    simp [(hStore.current name hName).2.1]
  have hCut :=
    Path.names_append_slash [] (Text.join ['/'] s.current)
  rw [Path.names_nil, List.nil_append,
    Path.names_join_pieces hSlash, hKept] at hCut
  exact hCut

theorem names_pathBelow
    {names : List Text}
    (hNames : ∀ name ∈ names, Path.IsName name)
    (dir : Text) :
    Path.names (pathBelow dir names) =
      Path.names dir ++ names := by
  unfold pathBelow
  induction names generalizing dir with
  | nil => simp
  | cons name names ih =>
      have hName := hNames name List.mem_cons_self
      have hRest := ih fun other hOther =>
        hNames other (List.mem_cons_of_mem name hOther)
      rw [List.foldl_cons, hRest,
        Path.names_join (Path.isAbsolute_of_isName hName),
        Path.names_of_isName hName, List.append_assoc,
        List.singleton_append]

/- Without dots in the arguments, there are none. -/
theorem not_mem_names_absolutePath
    (hStore : s.WellFormed)
    (hDots : ['.', '.'] ∉ Path.components path) :
    ['.', '.'] ∉ Path.names (absolutePath s path) := by
  have hNames : ['.', '.'] ∉ Path.names path := fun hMem =>
    hDots (Path.mem_components_of_mem_names hMem)
  unfold absolutePath
  cases hAbsolute : Path.isAbsolute path with
  | true =>
      rw [Path.join, if_pos hAbsolute]
      exact hNames
  | false =>
      rw [Path.names_join hAbsolute,
        names_currentPath hStore, List.mem_append, not_or]
      refine ⟨fun hMem => ?_, hNames⟩
      exact (hStore.current _ hMem).2.2 rfl

/- Files of a run without dots in its arguments. -/
theorem not_mem_names_of_mem_collect
    (hStore : s.WellFormed)
    {paths files : List Text}
    (hDots :
      ∀ path ∈ paths, ['.', '.'] ∉ Path.components path)
    (hCollect :
      collect s (paths.map (absolutePath s)) = .ok files)
    (hMem : path ∈ files) :
    ['.', '.'] ∉ Path.names path ∧
      ∃ name, Path.fileName? path = some name := by
  rcases exists_of_mem_collect hCollect hMem with
    ⟨given, hGiven, found, hFound, hPath⟩
  rcases List.mem_map.mp hGiven with ⟨written, hWritten, rfl⟩
  have hPlain := not_mem_names_absolutePath hStore
    (hDots written hWritten)
  rcases exists_of_collectPath hFound hPath with
    ⟨rfl, content, hFile⟩ |
      ⟨children, names, hDir, hListed, rfl⟩
  · exact ⟨hPlain, Store.exists_fileName? hFile⟩
  · rcases Store.exists_at?_of_find? hDir with ⟨place, hAt⟩
    have hTree := Tree.named_at? hStore.root hAt
    have hNames :
        ∀ name ∈ names, Path.IsName name := fun name =>
      Tree.isName_of_mem_listing hTree hListed
    have hSome := Tree.ne_nil_of_mem_listing hListed
    have hEq :=
      names_pathBelow hNames (absolutePath s written)
    constructor
    · rw [hEq, List.mem_append, not_or]
      refine ⟨hPlain, fun hMem => ?_⟩
      exact (hNames _ hMem).2.2 rfl
    · refine ⟨names.getLast hSome,
        Path.fileName?_eq_some_iff.mpr ⟨?_, ?_⟩⟩
      · rw [hEq, List.getLast?_append,
          List.getLast?_eq_some_getLast hSome]
        rfl
      · exact (hNames _ (List.getLast_mem hSome)).2.2

end Collected

end CommandLine

end ComponentLoader
