import Mathlib.Tactic
import ComponentLoader.CommandLine.Run

/-
  What a run over files comes to.  A run does not start
  for one of a few causes, and where none of them holds,
  it is aborted if the transformation of a file is.  Else
  its report is the account of its files one by one: each
  is transformed as it was before the run, and is emitted
  into what the files before it have left.

  Main declarations:
    * `CommandLine.RunError.CausedBy`
    * `CommandLine.causedBy_of_resolveOptions`
    * `CommandLine.causedBy_of_collect`
    * `CommandLine.not_causedBy`
    * `CommandLine.transformAll_eq_some_iff`
    * `CommandLine.transformAll_eq_none_iff`
    * `CommandLine.outcomes`
    * `CommandLine.foldl_emitResult`
    * `CommandLine.Report.Accounts`
    * `CommandLine.accounts_reportOf`
-/

------------------------------------------------------------
-- Causes
------------------------------------------------------------

namespace ComponentLoader

namespace CommandLine

open Files (Store Tree)

/- What has to hold for a run to fail with an error. -/
def RunError.CausedBy
    (s : Store)
    (a : Arguments) : RunError → Prop
  | .unreadableOptions path =>
      a.config = some path ∧ s.read? path = none
  | .malformedOptions path =>
      a.config = some path ∧
        ∃ text,
          s.read? path = some text ∧
            Options.parse? text = none
  | .options fault =>
      ∃ o,
        optionsFile s a.config = .ok o ∧
          (override a o).fault? = some fault
  | .noSuchPath path =>
      path ∈ a.paths.map (absolutePath s) ∧
        s.isFile path = false ∧ s.isDir path = false

/- The report of a run on what its files came to. -/
def reportOf
    (s : Store)
    (p : Plan)
    (results : List (Text × Except FileError Output)) :
    Report :=
  results.foldl (emitResult p) (.start s)

section Causes

variable {s : Store}
variable {a : Arguments}
variable {e : RunError}

theorem causedBy_of_optionsFile
    (hError : optionsFile s a.config = .error e) :
    e.CausedBy s a := by
  unfold optionsFile at hError
  split at hError
  · cases hError
  · next path hConfig =>
      split at hError
      · next hRead =>
          cases hError
          exact ⟨hConfig, hRead⟩
      · next text hRead =>
          split at hError
          · next hParse =>
              cases hError
              exact ⟨hConfig, text, hRead, hParse⟩
          · cases hError

theorem causedBy_of_resolveOptions
    (hError : resolveOptions s a = .error e) :
    e.CausedBy s a := by
  unfold resolveOptions at hError
  split at hError
  · next hFile =>
      cases hError
      exact causedBy_of_optionsFile hFile
  · next o hFile =>
      split at hError
      · next fault hFault =>
          cases hError
          exact ⟨o, hFile, hFault⟩
      · cases hError

/- A path stands for files unless it leads nowhere. -/
theorem collectPath_error_iff
    {path : Text} :
    collectPath s path = .error e ↔
      e = .noSuchPath path ∧ s.isFile path = false ∧
        s.isDir path = false := by
  unfold collectPath Store.isFile Store.isDir
  cases s.find? path with
  | none => simp [eq_comm]
  | some t =>
      cases t with
      | file content => simp [Tree.isFile]
      | dir children => simp [Tree.isFile, Tree.isDir]

theorem exists_of_collect_error
    {paths : List Text}
    (hError : collect s paths = .error e) :
    ∃ path ∈ paths, collectPath s path = .error e := by
  induction paths with
  | nil => exact absurd hError (by simp [collect])
  | cons path paths ih =>
      unfold collect at hError
      split at hError
      · next hPath =>
          cases hError
          exact ⟨path, List.mem_cons_self, hPath⟩
      · split at hError
        · next hPaths =>
            cases hError
            rcases ih hPaths with ⟨other, hMem, hOther⟩
            exact ⟨other, List.mem_cons_of_mem path hMem,
              hOther⟩
        · cases hError

theorem collectPath_ne_error_of_collect
    {paths files : List Text}
    (hFiles : collect s paths = .ok files)
    {path : Text}
    (hMem : path ∈ paths) :
    collectPath s path ≠ .error e := by
  induction paths generalizing files with
  | nil => exact absurd hMem (by simp)
  | cons first paths ih =>
      unfold collect at hFiles
      split at hFiles
      · cases hFiles
      · next hFirst =>
          split at hFiles
          · cases hFiles
          · next hPaths =>
              rcases List.mem_cons.mp hMem with rfl | hMem
              · simp [hFirst]
              · exact ih hPaths hMem

theorem run_of_resolveOptions_error
    (hOptions : resolveOptions s a = .error e) :
    run s a = some (.error e) := by
  unfold run
  rw [hOptions]

theorem run_of_collect_error
    {options : Options}
    (hOptions : resolveOptions s a = .ok options)
    (hCollect :
      collect s (a.paths.map (absolutePath s)) = .error e) :
    run s a = some (.error e) := by
  unfold run
  rw [hOptions]
  simp only
  rw [hCollect]

theorem run_of_collect
    {options : Options}
    {files : List Text}
    (hOptions : resolveOptions s a = .ok options)
    (hCollect :
      collect s (a.paths.map (absolutePath s)) = .ok files) :
    run s a =
      (transformAll s (planOf s a options files.length)
        files).map fun results =>
          .ok (reportOf s (planOf s a options files.length)
            results) := by
  unfold run
  rw [hOptions]
  simp only
  rw [hCollect]
  rfl

theorem causedBy_of_collect
    (hError :
      collect s (a.paths.map (absolutePath s)) = .error e) :
    e.CausedBy s a := by
  rcases exists_of_collect_error hError with
    ⟨path, hMem, hPath⟩
  rcases collectPath_error_iff.mp hPath with
    ⟨rfl, hFile, hDir⟩
  exact ⟨hMem, hFile, hDir⟩

/- Nothing can be a cause of failure in a run with files. -/
theorem not_causedBy
    {options : Options}
    {files : List Text}
    (hOptions : resolveOptions s a = .ok options)
    (hCollect :
      collect s (a.paths.map (absolutePath s)) = .ok files) :
    ¬ e.CausedBy s a := by
  intro hCause
  cases e with
  | unreadableOptions path =>
      rcases hCause with ⟨hConfig, hRead⟩
      simp [resolveOptions, optionsFile, hConfig, hRead]
        at hOptions
  | malformedOptions path =>
      rcases hCause with ⟨hConfig, text, hRead, hParse⟩
      simp [resolveOptions, optionsFile, hConfig, hRead,
        hParse] at hOptions
  | options fault =>
      rcases hCause with ⟨o, hFile, hFault⟩
      simp [resolveOptions, hFile, hFault] at hOptions
  | noSuchPath path =>
      rcases hCause with ⟨hMem, hFile, hDir⟩
      apply collectPath_ne_error_of_collect hCollect hMem
      exact collectPath_error_iff.mpr ⟨rfl, hFile, hDir⟩

end Causes

------------------------------------------------------------
-- Files That Are Transformed
------------------------------------------------------------

section Transformed

variable {s : Store}
variable {p : Plan}

theorem transformAll_cons_eq_some_iff
    {path : Text}
    {paths : List Text}
    {results : List (Text × Except FileError Output)} :
    transformAll s p (path :: paths) = some results ↔
      ∃ result rest,
        transformFile s p path = some result ∧
          transformAll s p paths = some rest ∧
          (path, result) :: rest = results := by
  rw [transformAll]
  cases transformFile s p path with
  | none => simp
  | some result =>
      cases transformAll s p paths with
      | none => simp
      | some rest => simp

/- Files come to results one by one, in order. -/
theorem transformAll_eq_some_iff
    {paths : List Text}
    {results : List (Text × Except FileError Output)} :
    transformAll s p paths = some results ↔
      results.map Prod.fst = paths ∧
        ∀ result ∈ results,
          transformFile s p result.1 = some result.2 := by
  induction paths generalizing results with
  | nil =>
      rw [transformAll, List.map_eq_nil_iff]
      constructor
      · rintro ⟨⟩
        exact ⟨rfl, by simp⟩
      · rintro ⟨rfl, _⟩
        rfl
  | cons path paths ih =>
      rw [transformAll_cons_eq_some_iff]
      constructor
      · rintro ⟨result, rest, hResult, hRest, rfl⟩
        rcases ih.mp hRest with ⟨rfl, hAll⟩
        exact ⟨rfl, List.forall_mem_cons.mpr ⟨hResult, hAll⟩⟩
      · rintro ⟨hPaths, hAll⟩
        rcases List.map_eq_cons_iff.mp hPaths with
          ⟨⟨_, result⟩, rest, rfl, rfl, rfl⟩
        rcases List.forall_mem_cons.mp hAll with
          ⟨hResult, hRest⟩
        exact ⟨result, rest, hResult, ih.mpr ⟨rfl, hRest⟩,
          rfl⟩

/- There are no results if one file has none. -/
theorem transformAll_eq_none_iff
    {paths : List Text} :
    transformAll s p paths = none ↔
      ∃ path ∈ paths, transformFile s p path = none := by
  induction paths with
  | nil => simp [transformAll]
  | cons path paths ih =>
      rw [List.exists_mem_cons_iff, ← ih, transformAll]
      cases transformFile s p path with
      | none => simp
      | some result =>
          cases transformAll s p paths with
          | none => simp
          | some rest => simp

end Transformed

theorem run_of_transformAll
    {s : Store}
    {a : Arguments}
    {options : Options}
    {files : List Text}
    {results : List (Text × Except FileError Output)}
    (hOptions : resolveOptions s a = .ok options)
    (hCollect :
      collect s (a.paths.map (absolutePath s)) = .ok files)
    (hResults :
      transformAll s (planOf s a options files.length)
        files = some results) :
    run s a =
      some
        (.ok
          (reportOf s (planOf s a options files.length)
            results)) := by
  rw [run_of_collect hOptions hCollect, hResults,
    Option.map_some]

------------------------------------------------------------
-- Files One By One
------------------------------------------------------------

/-
  In what follows `s` is the store that a run starts with,
  which all files are read from, and `now` is the store
  when a file has its turn to be emitted.
-/
section Turns

variable (s : Store)
variable (p : Plan)

/- The store that the turn of a file leaves. -/
def storeWith
    (now : Store)
    (path : Text) : Store :=
  match p.outDir, transformFile s p path with
  | some outDir, some (.ok output) =>
      (now.save (targetPath p outDir path) output.code).1
  | _, _ => now

/- What is printed in the turn of a file. -/
def printedFor
    (path : Text) : Text :=
  match p.outDir, transformFile s p path with
  | none, some (.ok output) => printedFile p path output.code
  | _, _ => []

/- What becomes of a file in its turn, if it has one. -/
def outcomeIn
    (now : Store)
    (path : Text) : Option (Except FileError Output) :=
  match p.outDir, transformFile s p path with
  | some outDir, some (.ok output) =>
      let target := targetPath p outDir path
      if (now.save target output.code).2 then
        some (.ok output)
      else
        some (.error (.unwritable target))
  | _, result => result

/- What becomes of files, one after the other. -/
def outcomesFrom :
    Store → List Text →
      List (Option (Except FileError Output))
  | _, [] => []
  | now, path :: paths =>
      outcomeIn s p now path ::
        outcomesFrom (storeWith s p now path) paths

/- What becomes of the files of a run. -/
def outcomes
    (files : List Text) :
    List (Option (Except FileError Output)) :=
  outcomesFrom s p s files

/- Whether a file was emitted with code it did not have. -/
def isChange
    (turn : Text × Option (Except FileError Output)) :
    Bool :=
  match s.read? turn.1, turn.2 with
  | some source, some (.ok output) => output.code != source
  | _, _ => false

end Turns

/- Why a file failed, if it did. -/
def failure? :
    Option (Except FileError Output) → Option FileError
  | some (.error e) => some e
  | _ => none

section Turns

variable {s : Store}
variable {p : Plan}

theorem isChange_of_transformFile
    {path : Text}
    {output : Output}
    (hOutput : transformFile s p path = some (.ok output)) :
    isChange s (path, some (.ok output)) =
      output.changed := by
  unfold transformFile at hOutput
  split at hOutput
  · cases hOutput
  · next source hRead =>
      split at hOutput
      · cases hOutput
      · cases hOutput
      · cases hOutput
        simp [isChange, hRead]

/- The turn of one file. -/
theorem emitResult_eq
    {path : Text}
    {result : Except FileError Output}
    (hResult : transformFile s p path = some result)
    (r : Report) :
    emitResult p r (path, result) =
      { store := storeWith s p r.store path
        printed := r.printed ++ printedFor s p path
        files := r.files + 1
        changed :=
          r.changed +
            if isChange s
                (path, outcomeIn s p r.store path) then
              1
            else
              0
        failures :=
          r.failures ++
            (failure? (outcomeIn s p r.store path)).toList }
      := by
  unfold emitResult storeWith printedFor outcomeIn
  rw [hResult]
  cases result with
  | error e =>
      cases p.outDir with
      | none => simp [failure?, isChange]
      | some outDir => simp [failure?, isChange]
  | ok output =>
      have hChange := isChange_of_transformFile hResult
      unfold emit
      cases p.outDir with
      | none => simp [failure?, hChange]
      | some outDir =>
          have hSave :
              ∃ store saved,
                r.store.save (targetPath p outDir path)
                  output.code = (store, saved) :=
            ⟨_, _, rfl⟩
          rcases hSave with ⟨store, saved, hSave⟩
          simp only [hSave]
          cases saved with
          | false => simp [failure?, isChange]
          | true => simp [failure?, hChange]

/- The turns of files, in order. -/
theorem foldl_emitResult
    {files : List Text}
    {results : List (Text × Except FileError Output)}
    (hResults : transformAll s p files = some results)
    (r : Report) :
    results.foldl (emitResult p) r =
      { store := files.foldl (storeWith s p) r.store
        printed := r.printed ++ files.flatMap (printedFor s p)
        files := r.files + files.length
        changed :=
          r.changed +
            (files.zip (outcomesFrom s p r.store files)).countP
              (isChange s)
        failures :=
          r.failures ++
            (outcomesFrom s p r.store files).filterMap
              failure? } := by
  induction files generalizing results r with
  | nil =>
      cases hResults
      simp [outcomesFrom]
  | cons path files ih =>
      rcases transformAll_cons_eq_some_iff.mp hResults with
        ⟨result, rest, hResult, hRest, rfl⟩
      rw [List.foldl_cons, ih hRest, emitResult_eq hResult]
      simp only [outcomesFrom, List.foldl_cons,
        List.flatMap_cons, List.length_cons,
        List.zip_cons_cons, List.countP_cons,
        List.append_assoc, Report.mk.injEq, true_and]
      refine ⟨?_, ?_, ?_⟩
      · omega
      · omega
      · rw [List.filterMap_cons]
        cases failure? (outcomeIn s p r.store path) with
        | none => rfl
        | some e => rfl

------------------------------------------------------------
-- Accounts
------------------------------------------------------------

theorem length_outcomesFrom
    (now : Store)
    (files : List Text) :
    (outcomesFrom s p now files).length = files.length := by
  induction files generalizing now with
  | nil => rfl
  | cons path files ih =>
      rw [outcomesFrom, List.length_cons, List.length_cons,
        ih]

/- A file finds what the files before it have left. -/
theorem getElem?_outcomesFrom
    (now : Store)
    {files : List Text}
    {i : Nat}
    {path : Text}
    (hPath : files[i]? = some path) :
    (outcomesFrom s p now files)[i]? =
      some (outcomeIn s p
        ((files.take i).foldl (storeWith s p) now) path) := by
  induction files generalizing now i with
  | nil => exact absurd hPath (by simp)
  | cons first files ih =>
      cases i with
      | zero =>
          rw [List.getElem?_cons_zero, Option.some.injEq]
            at hPath
          rw [hPath, outcomesFrom, List.getElem?_cons_zero,
            List.take_zero, List.foldl_nil]
      | succ i =>
          rw [List.getElem?_cons_succ] at hPath
          rw [outcomesFrom, List.getElem?_cons_succ,
            ih _ hPath, List.take_succ_cons,
            List.foldl_cons]

/- A file that is not transformed leaves no trace. -/
theorem untouched_of_error
    {path : Text}
    {e : FileError}
    (hError : transformFile s p path = some (.error e)) :
    printedFor s p path = [] ∧
      ∀ now,
        storeWith s p now path = now ∧
          outcomeIn s p now path = some (.error e) := by
  unfold printedFor storeWith outcomeIn
  rw [hError]
  cases p.outDir with
  | none => exact ⟨rfl, fun _ => ⟨rfl, rfl⟩⟩
  | some outDir => exact ⟨rfl, fun _ => ⟨rfl, rfl⟩⟩

theorem untouched_of_none
    {path : Text}
    (hNone : transformFile s p path = none)
    (now : Store) :
    storeWith s p now path = now ∧
      outcomeIn s p now path = none := by
  unfold storeWith outcomeIn
  rw [hNone]
  cases p.outDir with
  | none => exact ⟨rfl, rfl⟩
  | some outDir => exact ⟨rfl, rfl⟩

/- Without a directory for them, no files are written. -/
theorem storeWith_of_outDir_none
    (hNone : p.outDir = none)
    (now : Store)
    (path : Text) :
    storeWith s p now path = now := by
  unfold storeWith
  rw [hNone]

/- With a directory for them, no files are printed. -/
theorem printedFor_of_outDir_some
    {outDir : Text}
    (hSome : p.outDir = some outDir)
    (path : Text) :
    printedFor s p path = [] := by
  unfold printedFor
  rw [hSome]

/-
  A report that accounts for files.  Each file has one
  outcome: what it was transformed to, as it was before the
  run, or an error, which may be that it was not possible
  to write it into what the files before it have left.
-/
structure Report.Accounts
    (s : Store)
    (p : Plan)
    (files : List Text)
    (r : Report) : Prop where
  count : r.files = files.length
  transformed :
    ∀ path ∈ files,
      ∃ result, transformFile s p path = some result
  length : (outcomes s p files).length = files.length
  outcome :
    ∀ i path, files[i]? = some path →
      (outcomes s p files)[i]? =
        some (outcomeIn s p
          ((files.take i).foldl (storeWith s p) s) path)
  untransformed :
    ∀ path e, transformFile s p path = some (.error e) →
      printedFor s p path = [] ∧
        ∀ now,
          storeWith s p now path = now ∧
            outcomeIn s p now path = some (.error e)
  store : r.store = files.foldl (storeWith s p) s
  unwritten : p.outDir = none → r.store = s
  printed : r.printed = files.flatMap (printedFor s p)
  unprinted :
    ∀ outDir, p.outDir = some outDir → r.printed = []
  failures :
    r.failures =
      (outcomes s p files).filterMap failure?
  changed :
    r.changed =
      (files.zip (outcomes s p files)).countP
        (isChange s)

theorem accounts_reportOf
    {files : List Text}
    {results : List (Text × Except FileError Output)}
    (hResults : transformAll s p files = some results) :
    (reportOf s p results).Accounts s p files := by
  unfold reportOf
  rw [foldl_emitResult hResults]
  constructor
  case count => exact Nat.zero_add files.length
  case transformed =>
    intro path hMem
    rw [← Option.ne_none_iff_exists']
    intro hNone
    have hAborted :=
      transformAll_eq_none_iff.mpr ⟨path, hMem, hNone⟩
    cases hResults.symm.trans hAborted
  case length => exact length_outcomesFrom s files
  case outcome =>
    intro i path hPath
    exact getElem?_outcomesFrom s hPath
  case untransformed =>
    intro path e hError
    exact untouched_of_error hError
  case store => rfl
  case unwritten =>
    intro hNone
    have hKeep :
        storeWith s p = fun now _ => now := by
      funext now path
      exact storeWith_of_outDir_none hNone now path
    simp [hKeep, Report.start]
  case printed => rfl
  case unprinted =>
    intro outDir hSome
    simp [Report.start, printedFor_of_outDir_some hSome]
  case failures => rfl
  case changed => exact Nat.zero_add _

end Turns

end CommandLine

end ComponentLoader
