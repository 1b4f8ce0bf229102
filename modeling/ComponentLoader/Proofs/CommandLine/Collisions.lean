import Mathlib.Tactic
import ComponentLoader.Proofs.CommandLine.Targets

/-
  Which files of a run have the same target, if there are
  no two dots in its arguments.

  Files below the root keep their names from there on, and
  files elsewhere keep the last one alone, so that files
  collide if they have one name and each of them is outside
  of the root or directly in it.  Unless something is in
  the way, a file is written and is there at the end of the
  run, or a later one has taken its place.

  Main declarations:
    * `CommandLine.ByName`
    * `CommandLine.targetNames_eq_iff`
    * `CommandLine.Report.KeepsCode`
    * `CommandLine.keepsCode_of_run`
    * `CommandLine.target_shared`
-/

------------------------------------------------------------
-- Files With One Target
------------------------------------------------------------

namespace ComponentLoader

namespace CommandLine

open Files (Store Tree)

/-
  Whether a file is emitted under its name alone: it is not
  below the root, or directly in it.
-/
def ByName
    (root path name : Text) : Prop :=
  Path.fileName? path = some name ∧
    (Path.relativeComponents? root path = none ∨
      Path.relativeComponents? root path = some [name])

section OneTarget

variable {root : Text}
variable (hRoot : Path.isAbsolute root = true)

include hRoot

theorem byName_iff
    {path name : Text}
    (hPath : Path.isAbsolute path = true)
    (hNamed : ∃ last, Path.fileName? path = some last) :
    ByName root path name ↔
      targetNames root path = [name] := by
  rcases hNamed with ⟨last, hLast⟩
  unfold ByName
  constructor
  · rintro ⟨hName, hNone | hSome⟩
    · rw [targetNames, hNone, hName]
      rfl
    · rw [targetNames, hSome]
  · intro hTarget
    have hName : last = name := by
      have hEnd := getLast?_targetNames hRoot hPath hLast
        (by simp [hTarget])
      rw [hTarget] at hEnd
      exact (Option.some.inj hEnd).symm
    refine ⟨hName ▸ hLast, ?_⟩
    unfold targetNames at hTarget
    cases hBelow :
        Path.relativeComponents? root path with
    | none => exact Or.inl rfl
    | some names =>
        rw [hBelow] at hTarget
        exact Or.inr (congrArg some hTarget)

/- Files below the root have targets of their own. -/
theorem names_eq_of_targetNames
    {path other : Text}
    (hPath : Path.isAbsolute path = true)
    (hOther : Path.isAbsolute other = true)
    (hBelow : Path.names root <+: Path.names path)
    (hBelow' : Path.names root <+: Path.names other)
    (hSame :
      targetNames root path = targetNames root other) :
    Path.names path = Path.names other := by
  have hEq := Path.relativeComponents?_eq hRoot hPath
  have hEq' := Path.relativeComponents?_eq hRoot hOther
  rw [if_pos hBelow] at hEq
  rw [if_pos hBelow'] at hEq'
  rw [targetNames, targetNames, hEq, hEq'] at hSame
  simp only at hSame
  calc
    Path.names path =
        Path.names root ++
          (Path.names path).drop
            (Path.names root).length :=
      List.prefix_iff_eq_append.mp hBelow |>.symm
    _ = Path.names root ++
          (Path.names other).drop
            (Path.names root).length := by
      rw [hSame]
    _ = Path.names other :=
      List.prefix_iff_eq_append.mp hBelow'

theorem targetNames_of_not_below
    {path name : Text}
    (hPath : Path.isAbsolute path = true)
    (hName : Path.fileName? path = some name)
    (hOutside :
      ¬ Path.names root <+: Path.names path) :
    targetNames root path = [name] := by
  rw [targetNames, Path.relativeComponents?_eq hRoot hPath,
    if_neg hOutside, hName]
  rfl

/- Files that differ share a target by their name alone. -/
theorem targetNames_eq_iff
    {path other : Text}
    (hPath : Path.isAbsolute path = true)
    (hOther : Path.isAbsolute other = true)
    (hNamed : ∃ name, Path.fileName? path = some name)
    (hNamed' : ∃ name, Path.fileName? other = some name)
    (hDiffer :
      Path.components path ≠ Path.components other) :
    targetNames root path = targetNames root other ↔
      ∃ name,
        ByName root path name ∧
          ByName root other name := by
  simp only [byName_iff hRoot hPath hNamed,
    byName_iff hRoot hOther hNamed']
  constructor
  · intro hSame
    rcases hNamed with ⟨name, hName⟩
    rcases hNamed' with ⟨name', hName'⟩
    by_cases hBelow :
        Path.names root <+: Path.names path
    · by_cases hBelow' :
          Path.names root <+: Path.names other
      · exfalso
        apply hDiffer
        rw [Path.components_of_isAbsolute hPath,
          Path.components_of_isAbsolute hOther,
          names_eq_of_targetNames hRoot hPath hOther hBelow
            hBelow' hSame]
      · have hTarget := targetNames_of_not_below hRoot hOther
          hName' hBelow'
        exact ⟨name', hSame.trans hTarget, hTarget⟩
    · have hTarget := targetNames_of_not_below hRoot hPath
        hName hBelow
      exact ⟨name, hTarget, hSame.symm.trans hTarget⟩
  · rintro ⟨name, hTarget, hTarget'⟩
    exact hTarget.trans hTarget'.symm

end OneTarget

------------------------------------------------------------
-- The Code Of A File
------------------------------------------------------------

section Present

variable {s : Store}
variable {p : Plan}
variable {dir : Text}
variable (hDir : p.outDir = some dir)

include hDir

/-
  After its turn and those of some files after it, the code
  of a file is at its target, unless one of them has the
  same target and took its place.
-/
theorem fileAt?_target
    {now : Store}
    {path : Text}
    {output : Output}
    (hOutcome : outcomeIn s p now path = some (.ok output))
    (after : List Text) :
    ((path :: after).foldl (storeWith s p) now).fileAt?
          (Path.resolve now.current
            (targetPath p dir path)) =
        some (some output.code) ∨
      ∃ other ∈ after, ∃ result,
        transformFile s p other = some (.ok result) ∧
          Path.resolve now.current
              (targetPath p dir other) =
            Path.resolve now.current
              (targetPath p dir path) ∧
          ((path :: after).foldl
              (storeWith s p) now).fileAt?
              (Path.resolve now.current
                (targetPath p dir path)) =
            some (some result.code) := by
  rw [List.foldl_cons, fileAt?_foldl_storeWith hDir,
    fileAt?_storeWith hDir, hOutcome,
    current_storeWith hDir]
  simp only [if_true]
  -- Which of the files after it went there last, if any?
  cases hLast : List.getLast? _ with
  | none => exact Or.inl rfl
  | some file =>
      right
      rcases List.mem_filter.mp (List.mem_of_getLast? hLast)
        with ⟨hMem, hPlace⟩
      rcases exists_of_mem_emittedIn hMem with
        ⟨result, hTurn, hCode⟩
      rcases turn_of_mem_zip hTurn with
        ⟨hAfter, later, hLater⟩
      refine ⟨file.1, hAfter, result,
        (saved_of_outcomeIn hDir hLater.symm).1,
        of_decide_eq_true hPlace, ?_⟩
      rw [← hCode]
      rfl

/-
  A file that is transformed is reported, as something is
  in the way of its target, or it is written.
-/
theorem present_or_reported
    (hHere : s.IsDirAt s.current)
    {files before after : List Text}
    {path : Text}
    (hFiles : files = before ++ path :: after)
    {output : Output}
    (hOutput : transformFile s p path = some (.ok output))
    {r : Report}
    (hAccounts : r.Accounts s p files) :
    (¬ (before.foldl (storeWith s p) s).Savable
          (targetPath p dir path) ∧
        FileError.unwritable (targetPath p dir path) ∈
          r.failures) ∨
      r.store.fileAt?
            (Path.resolve s.current
              (targetPath p dir path)) =
          some (some output.code) ∨
      ∃ other ∈ after, ∃ result,
        transformFile s p other = some (.ok result) ∧
          Path.resolve s.current (targetPath p dir other) =
            Path.resolve s.current (targetPath p dir path) ∧
          r.store.fileAt?
              (Path.resolve s.current
                (targetPath p dir path)) =
            some (some result.code) := by
  have hCurrent :=
    @current_foldl_storeWith s p dir hDir before s
  have hThere :
      (before.foldl (storeWith s p) s).IsDirAt
        (before.foldl (storeWith s p) s).current :=
    isDirAt_foldl_storeWith hDir before hHere
  have hStart :=
    Store.isDirAt_start hThere (targetPath p dir path)
  have hOutcome := outcomeIn_eq hDir
    (before.foldl (storeWith s p) s) path hOutput
  split at hOutcome
  · right
    rw [hAccounts.store, hFiles, List.foldl_append,
      ← hCurrent]
    exact fileAt?_target hDir hOutcome after
  · next hFailed =>
      left
      rw [Store.save_iff hStart] at hFailed
      refine ⟨hFailed, ?_⟩
      have hTurn := hAccounts.outcome before.length path
        (by simp [hFiles])
      rw [hFiles, List.take_left, ← hFiles, hOutcome]
        at hTurn
      rw [hAccounts.failures, List.mem_filterMap]
      exact ⟨_, List.mem_of_getElem? hTurn, rfl⟩

end Present

------------------------------------------------------------
-- Runs
------------------------------------------------------------

/-
  What becomes of the code of the files of a run that
  writes into a directory.  Each file has its own target
  there, except for files that go by the same name.  For
  each file that is transformed, something is in the way of
  its target when it has its turn, and this is reported; or
  its code is there at the end of the run, or the code of a
  later file with the same target is.
-/
structure Report.KeepsCode
    (s : Store)
    (p : Plan)
    (dir : Text)
    (files : List Text)
    (r : Report) : Prop where
  target :
    ∀ path ∈ files,
      Path.resolve s.current (targetPath p dir path) =
        Path.resolve s.current dir ++
          targetNames p.root path
  apart :
    ∀ path ∈ files, ∀ other ∈ files,
      Path.components path ≠ Path.components other →
        (Path.resolve s.current (targetPath p dir path) =
            Path.resolve s.current
              (targetPath p dir other) ↔
          ∃ name,
            ByName p.root path name ∧
              ByName p.root other name)
  present :
    ∀ before path after output,
      files = before ++ path :: after →
      transformFile s p path = some (.ok output) →
        (¬ (before.foldl (storeWith s p) s).Savable
              (targetPath p dir path) ∧
            FileError.unwritable (targetPath p dir path) ∈
              r.failures) ∨
          r.store.fileAt?
                (Path.resolve s.current
                  (targetPath p dir path)) =
              some (some output.code) ∨
          ∃ other ∈ after, ∃ result,
            transformFile s p other = some (.ok result) ∧
              Path.resolve s.current
                  (targetPath p dir other) =
                Path.resolve s.current
                  (targetPath p dir path) ∧
              r.store.fileAt?
                  (Path.resolve s.current
                    (targetPath p dir path)) =
                some (some result.code)

/- Without dots, a target is made of the names of a file. -/
theorem resolve_targetPath_of_not_mem
    {p : Plan}
    {path : Text}
    (hRoot : Path.isAbsolute p.root = true)
    (hPath : Path.isAbsolute path = true)
    (hDots : ['.', '.'] ∉ Path.names path)
    (hNamed : ∃ name, Path.fileName? path = some name)
    (current : List Text)
    (dir : Text) :
    Path.resolve current (targetPath p dir path) =
      Path.resolve current dir ++
        targetNames p.root path := by
  rcases hNamed with ⟨name, hName⟩
  rw [resolve_targetPath hRoot hPath hName,
    Path.foldl_follow_of_not_mem]
  intro hUp
  exact hDots (mem_names_of_mem_targetNames hRoot hPath hUp)

/-
  A run without two dots in its arguments keeps the code of
  all its files apart from those that go by one name.
-/
theorem keepsCode_of_run
    {s : Store}
    {a : Arguments}
    {r : Report}
    {dir : Text}
    (hRun : run s a = some (.ok r))
    (hDir : a.outDir = some dir)
    (hStore : s.WellFormed)
    (hDots :
      ∀ path ∈ a.paths,
        ['.', '.'] ∉ Path.components path) :
    ∃ options files,
      Completed s a options files r ∧
        r.KeepsCode s (planOf s a options files.length) dir
          files := by
  rcases completed_of_run hRun with
    ⟨options, files, hCompleted⟩
  have hCollect := hCompleted.collected
  have hRoot := isAbsolute_rootPath s a.root
  have hFiles :
      ∀ path ∈ files, Path.isAbsolute path = true :=
    fun path => isAbsolute_of_mem_collect hCollect
  have hPlain :
      ∀ path ∈ files,
        ['.', '.'] ∉ Path.names path ∧
          ∃ name, Path.fileName? path = some name :=
    fun path =>
      not_mem_names_of_mem_collect hStore hDots hCollect
  have hTarget :
      ∀ path ∈ files,
        Path.resolve s.current
            (targetPath (planOf s a options files.length) dir
              path) =
          Path.resolve s.current dir ++
            targetNames (rootPath s a.root) path := by
    intro path hMem
    exact resolve_targetPath_of_not_mem hRoot
      (hFiles path hMem) (hPlain path hMem).1
      (hPlain path hMem).2 s.current dir
  refine ⟨options, files, hCompleted, ?_⟩
  constructor
  case target => exact hTarget
  case apart =>
    intro path hMem other hOther hDiffer
    rw [hTarget path hMem, hTarget other hOther,
      List.append_right_inj]
    exact targetNames_eq_iff hRoot (hFiles path hMem)
      (hFiles other hOther) (hPlain path hMem).2
      (hPlain other hOther).2 hDiffer
  case present =>
    intro before path after output hSplit hOutput
    exact present_or_reported hDir hStore.here hSplit hOutput
      hCompleted.accounts

/- Two files of one name, both outside of the root. -/
def Shared.store : Store where
  root :=
    .dir
      [("w".toList,
        .dir
          [("a".toList,
            .dir [("x.ts".toList,
              .file (some "let a".toList))]),
            ("b".toList,
              .dir [("x.ts".toList,
                .file (some "let b".toList))])])]
  current := ["w".toList]

def Shared.arguments : Arguments where
  paths := ["a/x.ts".toList, "b/x.ts".toList]
  root := some "r".toList
  outDir := some "out".toList

def Shared.plan : Plan :=
  planOf store arguments {} 2

def Shared.report : Report :=
  reportOf store plan
    [("/w/a/x.ts".toList,
        .ok { code := "let a".toList, changed := false }),
      ("/w/b/x.ts".toList,
        .ok { code := "let b".toList, changed := false })]

/- A file with a directory in the place of its target. -/
def Blocked.store : Store where
  root :=
    .dir
      [("w".toList,
        .dir
          [("x.ts".toList, .file (some "let a".toList)),
            ("out".toList,
              .dir [("x.ts".toList, .dir [])])])]
  current := ["w".toList]

def Blocked.arguments : Arguments where
  paths := ["x.ts".toList]
  outDir := some "out".toList

def Blocked.plan : Plan :=
  planOf store arguments {} 1

def Blocked.report : Report :=
  reportOf store plan
    [("/w/x.ts".toList,
      .ok { code := "let a".toList, changed := false })]

theorem Shared.wellFormed_store :
    Shared.store.WellFormed := by
  have hFile :
      ∀ code : Text,
        (Tree.dir
          [("x.ts".toList, .file (some code))]).Named := by
    intro code
    refine .dir ?_ ?_
    · rw [List.forall_mem_singleton]
      change Path.IsName "x.ts".toList
      decide
    · rw [List.forall_mem_singleton]
      exact .file _
  constructor
  case root =>
    refine .dir (by decide) ?_
    rw [List.forall_mem_singleton]
    refine .dir (by decide) ?_
    rw [List.forall_mem_cons, List.forall_mem_singleton]
    exact ⟨hFile _, hFile _⟩
  case current => decide
  case here => rfl

theorem keepsCode_of_run_shared :
    ∃ options files,
      Completed Shared.store Shared.arguments options files
          Shared.report ∧
        Shared.report.KeepsCode Shared.store
          (planOf Shared.store Shared.arguments options
            files.length)
          "out".toList files :=
  keepsCode_of_run (run_of_transformAll rfl rfl rfl) rfl
    Shared.wellFormed_store (by decide)

/-
  Two files with one target: what is left of them is the
  code of the second.  A file with a directory in its way
  is not written at all.
-/
theorem target_shared_or_blocked :
    (run Shared.store Shared.arguments =
        some (.ok Shared.report) ∧
      Shared.store.WellFormed ∧
      (∀ path ∈ Shared.arguments.paths,
        ['.', '.'] ∉ Path.components path) ∧
      Path.components "/w/a/x.ts".toList ≠
        Path.components "/w/b/x.ts".toList ∧
      targetPath Shared.plan "out".toList
          "/w/a/x.ts".toList =
        targetPath Shared.plan "out".toList
          "/w/b/x.ts".toList ∧
      transformFile Shared.store Shared.plan
          "/w/a/x.ts".toList =
        some
          (.ok
            { code := "let a".toList, changed := false }) ∧
      Shared.report.store.fileAt?
          (Path.resolve Shared.store.current
            (targetPath Shared.plan "out".toList
              "/w/a/x.ts".toList)) =
        some (some "let b".toList)) ∧
    (run Blocked.store Blocked.arguments =
        some (.ok Blocked.report) ∧
      transformFile Blocked.store Blocked.plan
          "/w/x.ts".toList =
        some
          (.ok
            { code := "let a".toList, changed := false }) ∧
      Blocked.report.store.fileAt?
          (Path.resolve Blocked.store.current
            (targetPath Blocked.plan "out".toList
              "/w/x.ts".toList)) =
        none) := by
  refine ⟨⟨run_of_transformAll rfl rfl rfl,
      Shared.wellFormed_store, by decide, by decide,
      by decide, rfl, ?_⟩,
    ⟨run_of_transformAll rfl rfl rfl, rfl, ?_⟩⟩
  · decide +kernel
  · decide +kernel

end CommandLine

end ComponentLoader
