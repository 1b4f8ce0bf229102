import Mathlib.Tactic
import ComponentLoader.Proofs.CommandLine.Collected
import ComponentLoader.Proofs.CommandLine.Execution
import ComponentLoader.Proofs.Files.Saving

/-
  Where the files of a run are written to, and what a run
  leaves of the files that were there.

  A file goes to the place that its names below the root
  lead to from the directory for the files of the run.  At
  the end of the run, a place has the code of the last file
  that was written to it, or what it had before.  A file
  goes outside of the directory if its names below the root
  lead above the root, by two dots, and do not come back.

  Main declarations:
    * `CommandLine.targetNames`
    * `CommandLine.resolve_targetPath`
    * `CommandLine.emitted`
    * `CommandLine.fileAt?_storeWith`
    * `CommandLine.fileAt?_foldl_storeWith`
    * `CommandLine.Report.WritesInto`
    * `CommandLine.writesInto_of_run`
-/

------------------------------------------------------------
-- Targets
------------------------------------------------------------

namespace ComponentLoader

namespace CommandLine

open Files (Store Tree)

/-
  The names that lead to the target of a file: those below
  the root, or its own name if it is not below the root.
-/
def targetNames
    (root path : Text) : List Text :=
  match Path.relativeComponents? root path with
  | some names => names
  | none => (Path.fileName? path).toList

section TargetNames

variable {root path : Text}
variable (hRoot : Path.isAbsolute root = true)
variable (hPath : Path.isAbsolute path = true)

include hRoot hPath

/- The names of a target end with the name of the file. -/
theorem getLast?_targetNames
    {name : Text}
    (hName : Path.fileName? path = some name)
    (hSome : targetNames root path ≠ []) :
    (targetNames root path).getLast? = some name := by
  have hLast := (Path.fileName?_eq_some_iff.mp hName).1
  have hEq := Path.relativeComponents?_eq hRoot hPath
  unfold targetNames at hSome ⊢
  split at hEq
  · next hBelow =>
      rw [hEq] at hSome ⊢
      rcases hBelow with ⟨below, hBelow⟩
      rw [← hBelow, List.drop_left] at hSome ⊢
      rw [← hBelow, List.getLast?_append_of_ne_nil _ hSome]
        at hLast
      exact hLast
  · rw [hEq, hName]
    rfl

/- The names of a target are names of the file. -/
theorem mem_names_of_mem_targetNames
    {name : Text}
    (hMem : name ∈ targetNames root path) :
    name ∈ Path.names path := by
  have hEq := Path.relativeComponents?_eq hRoot hPath
  unfold targetNames at hMem
  split at hEq
  · rw [hEq] at hMem
    exact List.mem_of_mem_drop hMem
  · rw [hEq, Option.mem_toList] at hMem
    exact List.mem_of_getLast?
      (Path.fileName?_eq_some_iff.mp hMem).1

end TargetNames

section Targets

variable {p : Plan}
variable {path : Text}
variable (hRoot : Path.isAbsolute p.root = true)
variable (hPath : Path.isAbsolute path = true)

include hRoot hPath

/- The target of a file is a relative path of its names. -/
theorem exists_targetPath
    {name : Text}
    (hName : Path.fileName? path = some name)
    (dir : Text) :
    ∃ relative,
      targetPath p dir path = Path.join dir relative ∧
        Path.isAbsolute relative = false ∧
        Path.names relative = targetNames p.root path := by
  unfold targetPath targetNames
  cases hRelative : Path.relative? p.root path with
  | none =>
      have hIsName := Path.isName_of_fileName? hName
      rw [Path.relative?_eq_none_iff.mp hRelative, hName]
      exact ⟨name, rfl, Path.isAbsolute_of_isName hIsName,
        Path.names_of_isName hIsName⟩
  | some relative =>
      rcases Path.names_relative hRoot hPath hRelative with
        ⟨hNames, hBelow⟩
      rw [hNames]
      exact ⟨relative, rfl, hBelow, rfl⟩

/- The target of a file is where its names lead to. -/
theorem resolve_targetPath
    {name : Text}
    (hName : Path.fileName? path = some name)
    (current : List Text)
    (dir : Text) :
    Path.resolve current (targetPath p dir path) =
      (targetNames p.root path).foldl Path.follow
        (Path.resolve current dir) := by
  rcases exists_targetPath hRoot hPath hName dir with
    ⟨relative, hTarget, hRelative, hNames⟩
  rw [hTarget, Path.resolve_join hRelative, hNames]

/- The target of a file that is saved has a name. -/
theorem targetNames_ne_nil
    {name : Text}
    (hName : Path.fileName? path = some name)
    {now : Store}
    {dir text : Text}
    (hSaved :
      (now.save (targetPath p dir path) text).2 = true) :
    targetNames p.root path ≠ [] := by
  rcases exists_targetPath hRoot hPath hName dir with
    ⟨relative, hTarget, hRelative, hNames⟩
  rcases (Store.savable_of_save hSaved).named with
    ⟨pieces, last, hPieces, hKept, _⟩
  have hLast :
      (Text.splitAll '/' relative).getLast? = some last := by
    rw [← Path.getLast?_splitAll_join hRelative, ← hTarget,
      hPieces, List.getLast?_concat]
  have hMem : last ∈ Path.names relative := by
    unfold Path.names
    rw [List.mem_filter]
    exact ⟨List.mem_of_getLast? hLast, by simp [hKept]⟩
  rw [← hNames]
  exact List.ne_nil_of_mem hMem

end Targets

------------------------------------------------------------
-- Written Files
------------------------------------------------------------

/- The files of turns that are emitted, with their code. -/
def emittedIn
    (turns :
      List (Text × Option (Except FileError Output))) :
    List (Text × Text) :=
  turns.filterMap fun turn =>
    match turn.2 with
    | some (.ok output) => some (turn.1, output.code)
    | _ => none

/- The files that a run emits, with their code, in order. -/
def emitted
    (s : Store)
    (p : Plan)
    (files : List Text) : List (Text × Text) :=
  emittedIn (files.zip (outcomes s p files))

theorem exists_of_mem_emittedIn
    {turns : List (Text × Option (Except FileError Output))}
    {file : Text × Text}
    (hMem : file ∈ emittedIn turns) :
    ∃ output : Output,
      (file.1, some (.ok output)) ∈ turns ∧
        file.2 = output.code := by
  rcases List.mem_filterMap.mp hMem with
    ⟨⟨path, result⟩, hTurn, hFile⟩
  rcases result with _ | e | output
  · cases hFile
  · cases hFile
  · cases hFile
    exact ⟨output, hTurn, rfl⟩

/- Each file has its turn at some point. -/
theorem turn_of_mem_zip
    {s now : Store}
    {p : Plan}
    {files : List Text}
    {path : Text}
    {outcome : Option (Except FileError Output)}
    (hMem :
      (path, outcome) ∈
        files.zip (outcomesFrom s p now files)) :
    path ∈ files ∧
      ∃ later, outcome = outcomeIn s p later path := by
  induction files generalizing now with
  | nil => cases hMem
  | cons first files ih =>
      rw [outcomesFrom, List.zip_cons_cons,
        List.mem_cons] at hMem
      rcases hMem with hFirst | hMem
      · cases hFirst
        exact ⟨List.mem_cons_self, now, rfl⟩
      · rcases ih hMem with ⟨hFile, later, hOutcome⟩
        exact ⟨List.mem_cons_of_mem first hFile, later,
          hOutcome⟩

section Written

variable {s : Store}
variable {p : Plan}
variable {dir : Text}
variable (hDir : p.outDir = some dir)

include hDir

theorem outcomeIn_eq
    (now : Store)
    (path : Text)
    {output : Output}
    (hOutput : transformFile s p path = some (.ok output)) :
    outcomeIn s p now path =
      if (now.save (targetPath p dir path)
          output.code).2 then
        some (.ok output)
      else
        some
          (.error (.unwritable (targetPath p dir path))) := by
  unfold outcomeIn
  rw [hDir, hOutput]

/- A file that is emitted is transformed and saved. -/
theorem saved_of_outcomeIn
    {now : Store}
    {path : Text}
    {output : Output}
    (hOutcome : outcomeIn s p now path = some (.ok output)) :
    transformFile s p path = some (.ok output) ∧
      (now.save (targetPath p dir path)
        output.code).2 = true := by
  rcases hResult : transformFile s p path with _ | e | result
  · rw [(untouched_of_none hResult now).2] at hOutcome
    cases hOutcome
  · rw [((untouched_of_error hResult).2 now).2] at hOutcome
    cases hOutcome
  · rw [outcomeIn_eq hDir now path hResult] at hOutcome
    split at hOutcome
    · next hSaved =>
        cases hOutcome
        exact ⟨rfl, hSaved⟩
    · cases hOutcome

/- The turn of a file changes what is at its target. -/
theorem fileAt?_storeWith
    (now : Store)
    (path : Text)
    (place : List Text) :
    (storeWith s p now path).fileAt? place =
      match outcomeIn s p now path with
      | some (.ok output) =>
          if place =
              Path.resolve now.current
                (targetPath p dir path) then
            some (some output.code)
          else
            now.fileAt? place
      | _ => now.fileAt? place := by
  rcases hResult : transformFile s p path with _ | e | output
  · rcases untouched_of_none hResult now with
      ⟨hStore, hOutcome⟩
    rw [hStore, hOutcome]
  · rcases (untouched_of_error hResult).2 now with
      ⟨hStore, hOutcome⟩
    rw [hStore, hOutcome]
  · rw [outcomeIn_eq hDir now path hResult]
    unfold storeWith
    rw [hDir, hResult]
    simp only
    rw [Store.fileAt?_save]
    cases
      (now.save (targetPath p dir path) output.code).2 with
    | true => simp
    | false => simp

theorem current_storeWith
    (now : Store)
    (path : Text) :
    (storeWith s p now path).current = now.current := by
  unfold storeWith
  rw [hDir]
  rcases transformFile s p path with _ | e | output
  · rfl
  · rfl
  · exact Store.current_save _ _ _

theorem current_foldl_storeWith
    (files : List Text)
    (now : Store) :
    (files.foldl (storeWith s p) now).current =
      now.current := by
  induction files generalizing now with
  | nil => rfl
  | cons path files ih =>
      rw [List.foldl_cons, ih, current_storeWith hDir]

/- No directory is lost in the turn of a file. -/
theorem isDirAt_storeWith
    {now : Store}
    {place : List Text}
    (hPlace : now.IsDirAt place)
    (path : Text) :
    (storeWith s p now path).IsDirAt place := by
  unfold storeWith
  rw [hDir]
  rcases transformFile s p path with _ | e | output
  · exact hPlace
  · exact hPlace
  · exact Store.isDirAt_save hPlace

/- The current directory is still there after the turns. -/
theorem isDirAt_foldl_storeWith
    (files : List Text)
    {now : Store}
    (hHere : now.IsDirAt now.current) :
    (files.foldl (storeWith s p) now).IsDirAt
      (files.foldl (storeWith s p) now).current := by
  induction files generalizing now with
  | nil => exact hHere
  | cons path files ih =>
      apply ih
      rw [current_storeWith hDir]
      exact isDirAt_storeWith hDir hHere path

/-
  After the turns of some files, a place has the code of
  the last one that was emitted to it, or what it had.
-/
theorem fileAt?_foldl_storeWith
    (files : List Text)
    (now : Store)
    (place : List Text) :
    (files.foldl (storeWith s p) now).fileAt? place =
      (((emittedIn
          (files.zip (outcomesFrom s p now files))).filter
        fun file =>
          Path.resolve now.current
            (targetPath p dir file.1) = place).getLast?.map
        fun file => some file.2).or
      (now.fileAt? place) := by
  induction files generalizing now with
  | nil => rfl
  | cons path files ih =>
      rw [List.foldl_cons, ih, current_storeWith hDir,
        fileAt?_storeWith hDir, outcomesFrom,
        List.zip_cons_cons]
      unfold emittedIn
      rw [List.filterMap_cons]
      rcases outcomeIn s p now path with _ | e | output
      · rfl
      · rfl
      · simp only
        rw [List.filter_cons]
        by_cases hPlace :
            Path.resolve now.current
              (targetPath p dir path) = place
        · -- The code of this file is there unless there is
          -- a later one that goes to the same place.
          rw [if_pos hPlace.symm, if_pos (by simpa),
            List.getLast?_cons]
          cases List.getLast? _ with
          | none => rfl
          | some later => rfl
        · rw [if_neg (Ne.symm hPlace),
            if_neg (by simpa using hPlace)]

/- An emitted file, with the store that it was saved to. -/
theorem saved_of_mem_emitted
    {files : List Text}
    {file : Text × Text}
    (hMem : file ∈ emitted s p files) :
    file.1 ∈ files ∧
      ∃ output now,
        transformFile s p file.1 = some (.ok output) ∧
          file.2 = output.code ∧
          (Store.save now (targetPath p dir file.1)
            file.2).2 = true := by
  rcases exists_of_mem_emittedIn hMem with
    ⟨output, hTurn, hCode⟩
  rcases turn_of_mem_zip hTurn with ⟨hFile, now, hOutcome⟩
  rcases saved_of_outcomeIn hDir hOutcome.symm with
    ⟨hOutput, hSaved⟩
  exact ⟨hFile, output, now, hOutput, hCode, hCode ▸ hSaved⟩

end Written

------------------------------------------------------------
-- Inside And Outside
------------------------------------------------------------

/-
  What a run that writes into a directory does to files: a
  place has the code of the last file that was emitted to
  it, or what it had.  The target of an emitted file is
  inside of the directory if and only if its names lead no
  higher than the root, or come back.
-/
structure Report.WritesInto
    (s : Store)
    (p : Plan)
    (dir : Text)
    (files : List Text)
    (r : Report) : Prop where
  content :
    ∀ place,
      r.store.fileAt? place =
        (((emitted s p files).filter fun file =>
            Path.resolve s.current
              (targetPath p dir file.1) = place).getLast?.map
          fun file => some file.2).or
        (s.fileAt? place)
  inside :
    ∀ file ∈ emitted s p files,
      Path.Inside (Path.resolve s.current dir)
          (Path.resolve s.current
            (targetPath p dir file.1)) ↔
        (Path.Move.ofNames
          (targetNames p.root file.1)).Returns
            (Path.resolve s.current dir)
  outside :
    ∀ file ∈ emitted s p files,
      Path.relativeComponents? p.root file.1 = none →
        Path.Inside (Path.resolve s.current dir)
          (Path.resolve s.current (targetPath p dir file.1))
  kept :
    (∀ file ∈ emitted s p files,
      Path.Inside (Path.resolve s.current dir)
        (Path.resolve s.current
          (targetPath p dir file.1))) →
      ∀ place,
        ¬ Path.Inside (Path.resolve s.current dir) place →
          r.store.fileAt? place = s.fileAt? place

section Inside

variable {s : Store}
variable {p : Plan}
variable {dir : Text}
variable {files : List Text}
variable (hDir : p.outDir = some dir)
variable (hRoot : Path.isAbsolute p.root = true)
variable (hFiles :
  ∀ path ∈ files, Path.isAbsolute path = true)

theorem exists_fileName?_of_transformFile
    {path : Text}
    {output : Output}
    (hOutput : transformFile s p path = some (.ok output)) :
    ∃ name, Path.fileName? path = some name := by
  unfold transformFile at hOutput
  split at hOutput
  · cases hOutput
  · next source hRead =>
      unfold Store.read? at hRead
      split at hRead
      · next content hFile =>
          exact Store.exists_fileName? hFile
      · cases hRead

include hDir hRoot hFiles

/- Whether an emitted file is inside of the directory. -/
theorem inside_iff_returns
    {file : Text × Text}
    (hMem : file ∈ emitted s p files) :
    Path.Inside (Path.resolve s.current dir)
        (Path.resolve s.current
          (targetPath p dir file.1)) ↔
      (Path.Move.ofNames
        (targetNames p.root file.1)).Returns
          (Path.resolve s.current dir) := by
  rcases saved_of_mem_emitted hDir hMem with
    ⟨hFile, output, now, hOutput, _, hSaved⟩
  rcases exists_fileName?_of_transformFile hOutput with
    ⟨name, hName⟩
  have hPath := hFiles file.1 hFile
  have hSome :=
    targetNames_ne_nil hRoot hPath hName hSaved
  have hLast :=
    getLast?_targetNames hRoot hPath hName hSome
  rcases List.getLast?_eq_some_iff.mp hLast with
    ⟨before, hNames⟩
  -- The way ends with the name of the file, which is no
  -- pair of dots, so it leads down at least by this name.
  have hDots := (Path.fileName?_eq_some_iff.mp hName).2
  rw [resolve_targetPath hRoot hPath hName,
    Path.foldl_follow]
  apply Path.Move.inside_apply_iff_returns
  rw [hNames]
  exact Path.Move.names_ofNames_concat hDots

theorem inside_of_not_mem
    {file : Text × Text}
    (hMem : file ∈ emitted s p files)
    (hDots : ['.', '.'] ∉ targetNames p.root file.1) :
    Path.Inside (Path.resolve s.current dir)
      (Path.resolve s.current
        (targetPath p dir file.1)) := by
  rw [inside_iff_returns hDir hRoot hFiles hMem]
  exact Or.inl (Path.Move.ups_ofNames hDots)

theorem writesInto_of_accounts
    {r : Report}
    (hAccounts : r.Accounts s p files) :
    r.WritesInto s p dir files := by
  have hContent :=
    @fileAt?_foldl_storeWith s p dir hDir files s
  rw [← hAccounts.store] at hContent
  constructor
  case content => exact hContent
  case inside =>
    intro file hMem
    exact inside_iff_returns hDir hRoot hFiles hMem
  case outside =>
    intro file hMem hOutside
    apply inside_of_not_mem hDir hRoot hFiles hMem
    rw [targetNames, hOutside, Option.mem_toList]
    intro hName
    exact (Path.isName_of_fileName? hName).2.2 rfl
  case kept =>
    intro hInside place hPlace
    rw [hContent, List.filter_eq_nil_iff.mpr]
    · rfl
    · intro file hMem hTarget
      rw [decide_eq_true_eq] at hTarget
      exact hPlace (hTarget ▸ hInside file hMem)

end Inside

theorem completed_of_run
    {s : Store}
    {a : Arguments}
    {r : Report}
    (hRun : run s a = some (.ok r)) :
    ∃ options files, Completed s a options files r := by
  cases hOptions : resolveOptions s a with
  | error e =>
      rw [run_of_resolveOptions_error hOptions] at hRun
      cases hRun
  | ok options =>
      cases hCollect :
          collect s (a.paths.map (absolutePath s)) with
      | error e =>
          rw [run_of_collect_error hOptions hCollect] at hRun
          cases hRun
      | ok files =>
          have hReport := run_of_collect hOptions hCollect
          rw [hRun, eq_comm, Option.map_eq_some_iff]
            at hReport
          rcases hReport with ⟨results, hResults, ⟨⟩⟩
          exact ⟨options, files,
            completed_of_collect hOptions hCollect hResults⟩

/-
  What a run with a directory for its files writes, and
  where.  If there are no two dots in its arguments, that
  is inside of the directory.
-/
theorem writesInto_of_run
    {s : Store}
    {a : Arguments}
    {r : Report}
    {dir : Text}
    (hRun : run s a = some (.ok r))
    (hDir : a.outDir = some dir) :
    ∃ options files,
      Completed s a options files r ∧
        r.WritesInto s (planOf s a options files.length) dir
          files ∧
        (s.WellFormed →
          (∀ path ∈ a.paths,
            ['.', '.'] ∉ Path.components path) →
          ∀ file ∈ emitted s
              (planOf s a options files.length) files,
            Path.Inside (Path.resolve s.current dir)
              (Path.resolve s.current
                (targetPath
                  (planOf s a options files.length) dir
                  file.1))) := by
  rcases completed_of_run hRun with
    ⟨options, files, hCompleted⟩
  have hCollect := hCompleted.collected
  have hRoot := isAbsolute_rootPath s a.root
  have hFiles :
      ∀ path ∈ files, Path.isAbsolute path = true :=
    fun path => isAbsolute_of_mem_collect hCollect
  refine ⟨options, files, hCompleted, ?_, ?_⟩
  · exact writesInto_of_accounts hDir hRoot hFiles
      hCompleted.accounts
  · intro hStore hDots file hMem
    have hFile := (saved_of_mem_emitted hDir hMem).1
    apply inside_of_not_mem hDir hRoot hFiles hMem
    intro hUp
    have hNames := mem_names_of_mem_targetNames hRoot
      (hFiles file.1 hFile) hUp
    exact (not_mem_names_of_mem_collect hStore hDots hCollect
      hFile).1 hNames

/-
  A file below the root by its name, but above it by two
  dots, and a directory that is not next to the root.
-/
def Escape.store : Store where
  root :=
    .dir
      [("w".toList,
        .dir
          [("a.ts".toList, .file (some "let a".toList)),
            ("sub".toList, .dir []),
            ("x".toList,
              .dir
                [("a.ts".toList,
                  .file (some "kept".toList))])])]
  current := ["w".toList]

def Escape.arguments : Arguments where
  paths := ["sub/../a.ts".toList]
  root := some "sub".toList
  outDir := some "x/out".toList

def Escape.report : Report :=
  reportOf store (planOf store arguments {} 1)
    [("/w/sub/../a.ts".toList,
      .ok { code := "let a".toList, changed := false })]

/- A file that is not inside of the directory is lost. -/
theorem writesInto_of_run_escape :
    ∃ options files,
      Completed Escape.store Escape.arguments options files
          Escape.report ∧
        Escape.report.WritesInto Escape.store
          (planOf Escape.store Escape.arguments options
            files.length)
          "x/out".toList files ∧
        ¬ Path.Inside
          (Path.resolve Escape.store.current
            "x/out".toList)
          (["w", "x", "a.ts"].map String.toList) ∧
        Escape.store.fileAt?
            (["w", "x", "a.ts"].map String.toList) =
          some (some "kept".toList) ∧
        Escape.report.store.fileAt?
            (["w", "x", "a.ts"].map String.toList) =
          some (some "let a".toList) := by
  have hRun :
      run Escape.store Escape.arguments =
        some (.ok Escape.report) :=
    run_of_transformAll rfl rfl rfl
  rcases writesInto_of_run hRun rfl with
    ⟨options, files, hCompleted, hWrites, _⟩
  exact ⟨options, files, hCompleted, hWrites,
    by decide +kernel, by decide +kernel,
    by decide +kernel⟩

end CommandLine

end ComponentLoader
