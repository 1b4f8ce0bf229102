import Mathlib.Tactic
import ComponentLoader.Proofs.CommandLine.Account
import ComponentLoader.Proofs.Loader.Preservation

/-
  A run as it is carried out.  Files are read and
  transformed one at a time and in any order, each from
  the store as it is at that moment; when all of them are
  done, they are emitted in the order of the arguments.
  A file on which the loader is aborted aborts the run, at
  whatever point it is read.  However this is scheduled, it
  comes to the same end.

  Main declarations:
    * `CommandLine.Machine`
    * `CommandLine.Machine.Step`
    * `CommandLine.Machine.Reaches`
    * `CommandLine.Machine.wellFounded_step`
    * `CommandLine.Machine.Follows`
    * `CommandLine.Machine.reaches_outcome`
    * `CommandLine.Refused`
    * `CommandLine.Misplaced`
    * `CommandLine.Aborted`
    * `CommandLine.Completed`
    * `CommandLine.refused_aborted_or_completed`
-/

------------------------------------------------------------
-- Machines
------------------------------------------------------------

namespace ComponentLoader

namespace CommandLine

open Files (Store)

/- A file, and what it was transformed to if it was read. -/
abbrev Job : Type :=
  Text × Option (Except FileError Output)

/- How far a run has come. -/
inductive Phase where
  /- Nothing is done. -/
  | starting
  /- Files are read and transformed. -/
  | reading (plan : Plan) (jobs : List Job)
  /- Files are emitted. -/
  | emitting
      (plan : Plan)
      (results : List (Text × Except FileError Output))
  /- All files are emitted. -/
  | finished
  /- The run has failed. -/
  | failed (e : RunError)
  /- The loader was aborted. -/
  | aborted

/-
  A run in the middle of its work.  The report has the
  files as they are by now and what was printed so far.
-/
structure Machine where
  phase : Phase
  report : Report

namespace Machine

/- A run before its first step. -/
def initial
    (s : Store) : Machine :=
  { phase := .starting
    report := .start s }

/- What a run can do next. -/
inductive Step
    (a : Arguments) : Machine → Machine → Prop where
  | refuse
      {r : Report}
      {e : RunError}
      (hOptions : resolveOptions r.store a = .error e) :
      Step a ⟨.starting, r⟩ ⟨.failed e, r⟩
  | lose
      {r : Report}
      {options : Options}
      {e : RunError}
      (hOptions : resolveOptions r.store a = .ok options)
      (hCollect :
        collect r.store
          (a.paths.map (absolutePath r.store)) = .error e) :
      Step a ⟨.starting, r⟩ ⟨.failed e, r⟩
  | collect
      {r : Report}
      {options : Options}
      {files : List Text}
      (hOptions : resolveOptions r.store a = .ok options)
      (hCollect :
        collect r.store
          (a.paths.map (absolutePath r.store)) =
            .ok files) :
      Step a ⟨.starting, r⟩
        ⟨.reading (planOf r.store a options files.length)
          (files.map fun path => (path, none)), r⟩
  | read
      {r : Report}
      {plan : Plan}
      {before after : List Job}
      {path : Text}
      {result : Except FileError Output}
      (hResult :
        transformFile r.store plan path = some result) :
      Step a
        ⟨.reading plan (before ++ (path, none) :: after), r⟩
        ⟨.reading plan
          (before ++ (path, some result) :: after), r⟩
  | abort
      {r : Report}
      {plan : Plan}
      {before after : List Job}
      {path : Text}
      (hNone : transformFile r.store plan path = none) :
      Step a
        ⟨.reading plan (before ++ (path, none) :: after), r⟩
        ⟨.aborted, r⟩
  | join
      {r : Report}
      {plan : Plan}
      {results : List (Text × Except FileError Output)} :
      Step a
        ⟨.reading plan
          (results.map fun result =>
            (result.1, some result.2)), r⟩
        ⟨.emitting plan results, r⟩
  | emit
      {r : Report}
      {plan : Plan}
      {result : Text × Except FileError Output}
      {results : List (Text × Except FileError Output)} :
      Step a ⟨.emitting plan (result :: results), r⟩
        ⟨.emitting plan results, emitResult plan r result⟩
  | finish
      {r : Report}
      {plan : Plan} :
      Step a ⟨.emitting plan [], r⟩ ⟨.finished, r⟩

/- What a run can come to in any number of steps. -/
def Reaches
    (a : Arguments) : Machine → Machine → Prop :=
  Relation.ReflTransGen (Step a)

------------------------------------------------------------
-- Termination
------------------------------------------------------------

/- The phases that are left, and the work in this one. -/
def work : Machine → Nat ×ₗ Nat
  | ⟨.starting, _⟩ => toLex (3, 0)
  | ⟨.reading _ jobs, _⟩ =>
      toLex (2, jobs.countP fun job => job.2.isNone)
  | ⟨.emitting _ results, _⟩ => toLex (1, results.length)
  | ⟨.finished, _⟩ => toLex (0, 0)
  | ⟨.failed _, _⟩ => toLex (0, 0)
  | ⟨.aborted, _⟩ => toLex (0, 0)

/- Every step leaves less to do. -/
theorem work_lt
    {a : Arguments}
    {m m' : Machine}
    (hStep : Step a m m') :
    m'.work < m.work := by
  cases hStep with
  | refuse => exact Prod.Lex.left _ _ (by decide)
  | lose => exact Prod.Lex.left _ _ (by decide)
  | collect => exact Prod.Lex.left _ _ (by decide)
  | read =>
      -- One job fewer has no result.
      apply Prod.Lex.right
      simp
  | abort => exact Prod.Lex.left _ _ (by decide)
  | join => exact Prod.Lex.left _ _ (by decide)
  | emit =>
      apply Prod.Lex.right
      simp
  | finish => exact Prod.Lex.left _ _ (by decide)

/- No run goes on forever. -/
theorem wellFounded_step
    (a : Arguments) :
    WellFounded fun m' m => Step a m m' := by
  have hWork :
      WellFounded fun m' m : Machine => m'.work < m.work :=
    InvImage.wf work wellFounded_lt
  exact Subrelation.wf work_lt hWork

------------------------------------------------------------
-- Where A Run Is Going
------------------------------------------------------------

/- The end of a run. -/
def outcome
    (s : Store)
    (a : Arguments) : Machine :=
  match run s a with
  | none => ⟨.aborted, .start s⟩
  | some (.error e) => ⟨.failed e, .start s⟩
  | some (.ok r) => ⟨.finished, r⟩

/-
  What holds while a run over a store is carried out.  Up
  to the first file that is emitted nothing has happened
  to the store, so that files which are read by now were
  read as they were at the start.
-/
def Follows
    (s : Store)
    (a : Arguments) : Machine → Prop
  | ⟨.starting, r⟩ => r = .start s
  | ⟨.reading p jobs, r⟩ =>
      r = .start s ∧
        run s a =
          (transformAll s p (jobs.map Prod.fst)).map
            (fun results => .ok (reportOf s p results)) ∧
        ∀ job ∈ jobs, ∀ result, job.2 = some result →
          transformFile s p job.1 = some result
  | ⟨.emitting p results, r⟩ =>
      run s a = some (.ok (results.foldl (emitResult p) r))
  | ⟨.finished, r⟩ => run s a = some (.ok r)
  | ⟨.failed e, r⟩ =>
      r = .start s ∧ run s a = some (.error e)
  | ⟨.aborted, r⟩ => r = .start s ∧ run s a = none

section Follows

variable {s : Store}
variable {a : Arguments}

theorem follows_step
    {m m' : Machine}
    (hFollows : m.Follows s a)
    (hStep : Step a m m') :
    m'.Follows s a := by
  cases hStep with
  | refuse hOptions =>
      cases hFollows
      exact ⟨rfl, run_of_resolveOptions_error hOptions⟩
  | lose hOptions hCollect =>
      cases hFollows
      exact ⟨rfl, run_of_collect_error hOptions hCollect⟩
  | collect hOptions hCollect =>
      cases hFollows
      have hPaths :
          ∀ files : List Text,
            (files.map fun path =>
              ((path, none) : Job)).map Prod.fst = files := by
        intro files
        rw [List.map_map]
        exact List.map_id files
      refine ⟨rfl, ?_, ?_⟩
      · rw [hPaths]
        exact run_of_collect hOptions hCollect
      · intro job hMem result hResult
        rcases List.mem_map.mp hMem with ⟨path, _, rfl⟩
        exact absurd hResult (by simp)
  | read hResult =>
      rcases hFollows with ⟨rfl, hRun, hRead⟩
      refine ⟨rfl, by simpa using hRun, ?_⟩
      intro job hMem result hJob
      rcases List.mem_append.mp hMem with hMem | hMem
      · exact hRead job (List.mem_append_left _ hMem) result
          hJob
      · rcases List.mem_cons.mp hMem with rfl | hMem
        · cases hJob
          exact hResult
        · exact hRead job
            (List.mem_append_right _
              (List.mem_cons_of_mem _ hMem))
            result hJob
  | @abort r plan before after path hNone =>
      rcases hFollows with ⟨rfl, hRun, _⟩
      refine ⟨rfl, ?_⟩
      rw [hRun, Option.map_eq_none_iff,
        transformAll_eq_none_iff]
      exact ⟨path, by simp, hNone⟩
  | @join r plan results =>
      rcases hFollows with ⟨rfl, hRun, hRead⟩
      have hResults :
          transformAll s plan (results.map Prod.fst) =
            some results := by
        rw [transformAll_eq_some_iff]
        refine ⟨rfl, ?_⟩
        intro result hMem
        exact hRead _ (List.mem_map_of_mem hMem) _ rfl
      rw [List.map_map] at hRun
      exact hRun.trans (congrArg _ hResults)
  | emit => exact hFollows
  | finish => exact hFollows

theorem follows_of_reaches
    {m : Machine}
    (hReaches : Reaches a (initial s) m) :
    m.Follows s a := by
  induction hReaches with
  | refl => rfl
  | tail _ hStep ih => exact follows_step ih hStep

/- A file is left to be read, or all of them are read. -/
theorem pending_or_read
    (jobs : List Job) :
    (∃ before path after,
        jobs = before ++ (path, none) :: after) ∨
      ∃ results : List (Text × Except FileError Output),
        jobs =
          results.map fun result =>
            (result.1, some result.2) := by
  induction jobs with
  | nil => exact Or.inr ⟨[], rfl⟩
  | cons job jobs ih =>
      rcases job with ⟨path, _ | result⟩
      · exact Or.inl ⟨[], path, jobs, rfl⟩
      · rcases ih with
          ⟨before, other, after, rfl⟩ | ⟨results, rfl⟩
        · exact Or.inl
            ⟨(path, some result) :: before, other, after,
              rfl⟩
        · exact Or.inr ⟨(path, result) :: results, rfl⟩

/- A run that has not come to its end goes on. -/
theorem exists_step
    {m : Machine}
    (hFollows : m.Follows s a) :
    m = outcome s a ∨ ∃ m', Step a m m' := by
  rcases m with ⟨phase, r⟩
  cases phase with
  | starting =>
      right
      cases hOptions : resolveOptions r.store a with
      | error e => exact ⟨_, .refuse hOptions⟩
      | ok options =>
          cases hCollect :
              CommandLine.collect r.store
                (a.paths.map (absolutePath r.store)) with
          | error e => exact ⟨_, .lose hOptions hCollect⟩
          | ok files =>
              exact ⟨_, .collect hOptions hCollect⟩
  | reading p jobs =>
      right
      rcases pending_or_read jobs with
        ⟨before, path, after, rfl⟩ | ⟨results, rfl⟩
      · cases hResult : transformFile r.store p path with
        | none => exact ⟨_, .abort hResult⟩
        | some result => exact ⟨_, .read hResult⟩
      · exact ⟨_, .join⟩
  | emitting p results =>
      right
      cases results with
      | nil => exact ⟨_, .finish⟩
      | cons result results => exact ⟨_, .emit⟩
  | finished =>
      left
      rw [Follows] at hFollows
      rw [outcome, hFollows]
  | failed e =>
      left
      rcases hFollows with ⟨rfl, hRun⟩
      rw [outcome, hRun]
  | aborted =>
      left
      rcases hFollows with ⟨rfl, hRun⟩
      rw [outcome, hRun]

/-
  However a run is scheduled, it comes to its one end: at
  no point has it gone astray.
-/
theorem reaches_outcome
    {m : Machine}
    (hReaches : Reaches a (initial s) m) :
    Reaches a m (outcome s a) := by
  have hFollows := follows_of_reaches hReaches
  -- By induction on the work that is left: a step keeps
  -- the invariant, and only the end has no step.
  induction m using (wellFounded_step a).induction with
  | _ m ih =>
      rcases exists_step hFollows with rfl | ⟨m', hStep⟩
      · exact Relation.ReflTransGen.refl
      · have hRest := ih m' hStep
          (hReaches.tail hStep) (follows_step hFollows hStep)
        exact Relation.ReflTransGen.head hStep hRest

end Follows

end Machine

------------------------------------------------------------
-- Ends Of Runs
------------------------------------------------------------

/-
  A run that fails: it does so for a cause, before it has
  written or printed anything.
-/
structure Refused
    (s : Store)
    (a : Arguments)
    (e : RunError) : Prop where
  result : run s a = some (.error e)
  cause : e.CausedBy s a
  untouched :
    ∀ m, Machine.Reaches a (.initial s) m →
      m.report.store = s ∧ m.report.printed = []
  ends :
    ∀ m, Machine.Reaches a (.initial s) m →
      Machine.Reaches a m ⟨.failed e, .start s⟩

/-
  Whether the loader is aborted on a file because of where
  it is cut: the file is a script, but what is found in it
  is not placed in its text, and one of the positions is
  inside a character.
-/
def Misplaced
    (s : Store)
    (p : Plan)
    (path : Text) : Prop :=
  ∃ source m,
    s.read? path = some source ∧
      Script.parse (Dialect.ofPath path)
        (Loader.splitMark source).2 = .ok m ∧
      let context := p.context path
      let f := Loader.fileOf context
        (Settings.resolve context p.options)
        (Loader.splitMark source).2
      ¬ Loader.CutsCleanly f (Loader.componentsOf f m) ∧
        ¬ m.Placed f.source

/-
  A run that is aborted: none of the causes of failure
  holds, but the loader is aborted on a file, and nothing
  is written or printed for any of them.
-/
structure Aborted
    (s : Store)
    (a : Arguments)
    (options : Options)
    (files : List Text) : Prop where
  result : run s a = none
  noCause : ∀ e : RunError, ¬ e.CausedBy s a
  resolved : resolveOptions s a = .ok options
  collected :
    collect s (a.paths.map (absolutePath s)) = .ok files
  cause :
    ∃ path ∈ files,
      transformFile s (planOf s a options files.length) path =
        none
  misplaced :
    ∀ path ∈ files,
      transformFile s (planOf s a options files.length) path =
          none →
        Misplaced s (planOf s a options files.length) path
  untouched :
    ∀ m, Machine.Reaches a (.initial s) m →
      m.report.store = s ∧ m.report.printed = []
  ends :
    ∀ m, Machine.Reaches a (.initial s) m →
      Machine.Reaches a m ⟨.aborted, .start s⟩

/-
  A run over files: none of the causes of failure holds,
  each file is transformed as it would be alone, before
  anything is written or printed, and the report accounts
  for all of them.
-/
structure Completed
    (s : Store)
    (a : Arguments)
    (options : Options)
    (files : List Text)
    (r : Report) : Prop where
  result : run s a = some (.ok r)
  noCause : ∀ e : RunError, ¬ e.CausedBy s a
  resolved : resolveOptions s a = .ok options
  collected :
    collect s (a.paths.map (absolutePath s)) = .ok files
  alone :
    ∀ path,
      transformFile s (planOf s a options files.length) path =
        transformFile s (planOf s a options 1) path
  reading :
    ∀ p jobs now,
      Machine.Reaches a (.initial s)
          ⟨.reading p jobs, now⟩ →
        now.store = s ∧ now.printed = []
  accounts :
    r.Accounts s (planOf s a options files.length) files
  ends :
    ∀ m, Machine.Reaches a (.initial s) m →
      Machine.Reaches a m ⟨.finished, r⟩

section Ends

variable {s : Store}
variable {a : Arguments}

/- A run without a report leaves everything alone. -/
theorem Machine.report_of_run
    (hRun : ∀ r, run s a ≠ some (.ok r))
    {m : Machine}
    (hFollows : m.Follows s a) :
    m.report = .start s := by
  rcases m with ⟨phase, r⟩
  cases phase with
  | starting => exact hFollows
  | reading p jobs => exact hFollows.1
  | emitting p results => exact absurd hFollows (hRun _)
  | finished => exact absurd hFollows (hRun r)
  | failed e => exact hFollows.1
  | aborted => exact hFollows.1

theorem Machine.untouched_of_run
    (hRun : ∀ r, run s a ≠ some (.ok r))
    {m : Machine}
    (hReaches : Machine.Reaches a (.initial s) m) :
    m.report.store = s ∧ m.report.printed = [] := by
  have hFollows := Machine.follows_of_reaches hReaches
  rw [Machine.report_of_run hRun hFollows]
  exact ⟨rfl, rfl⟩

theorem Machine.reaches_of_outcome
    {final : Machine}
    (hFinal : Machine.outcome s a = final)
    {m : Machine}
    (hReaches : Machine.Reaches a (.initial s) m) :
    Machine.Reaches a m final := by
  rw [← hFinal]
  exact Machine.reaches_outcome hReaches

theorem refused_of_run
    {e : RunError}
    (hRun : run s a = some (.error e))
    (hCause : e.CausedBy s a) :
    Refused s a e where
  result := hRun
  cause := hCause
  untouched := by
    intro m hReaches
    apply Machine.untouched_of_run ?_ hReaches
    intro r hOther
    cases hRun.symm.trans hOther
  ends := fun _ =>
    Machine.reaches_of_outcome (by rw [Machine.outcome, hRun])

/- There is no other reason for the loader to be aborted. -/
theorem misplaced_of_transformFile
    {p : Plan}
    {path : Text}
    (hNone : transformFile s p path = none) :
    Misplaced s p path := by
  unfold transformFile at hNone
  split at hNone
  · cases hNone
  · next source hRead =>
      split at hNone
      · next hTransform =>
          rcases Loader.transform_eq_none_iff.mp hTransform
            with ⟨m, _, _, hParse, hClean⟩
          refine ⟨source, m, hRead, hParse, hClean, ?_⟩
          intro hPlaced
          exact hClean (Loader.cutsCleanly_of_placed hPlaced)
      · cases hNone
      · cases hNone

theorem aborted_of_collect
    {options : Options}
    {files : List Text}
    (hOptions : resolveOptions s a = .ok options)
    (hCollect :
      collect s (a.paths.map (absolutePath s)) = .ok files)
    (hNone :
      transformAll s (planOf s a options files.length)
        files = none) :
    Aborted s a options files := by
  have hRun : run s a = none := by
    rw [run_of_collect hOptions hCollect, hNone,
      Option.map_none]
  exact
    { result := hRun
      noCause := fun _ => not_causedBy hOptions hCollect
      resolved := hOptions
      collected := hCollect
      cause := transformAll_eq_none_iff.mp hNone
      misplaced := fun _ _ => misplaced_of_transformFile
      untouched := by
        intro m hReaches
        apply Machine.untouched_of_run ?_ hReaches
        intro r hOther
        cases hRun.symm.trans hOther
      ends := fun _ =>
        Machine.reaches_of_outcome
          (by rw [Machine.outcome, hRun]) }

theorem completed_of_collect
    {options : Options}
    {files : List Text}
    {results : List (Text × Except FileError Output)}
    (hOptions : resolveOptions s a = .ok options)
    (hCollect :
      collect s (a.paths.map (absolutePath s)) = .ok files)
    (hResults :
      transformAll s (planOf s a options files.length)
        files = some results) :
    Completed s a options files
      (reportOf s (planOf s a options files.length)
        results) := by
  have hRun := run_of_transformAll hOptions hCollect hResults
  exact
    { result := hRun
      noCause := fun _ => not_causedBy hOptions hCollect
      resolved := hOptions
      collected := hCollect
      alone := fun _ => rfl
      reading := by
        intro p jobs now hReaches
        have hFollows := Machine.follows_of_reaches hReaches
        rw [hFollows.1]
        exact ⟨rfl, rfl⟩
      accounts := accounts_reportOf hResults
      ends := fun _ =>
        Machine.reaches_of_outcome
          (by rw [Machine.outcome, hRun]) }

end Ends

/-
  Every run comes to an end: it is refused, or aborted by a
  file whose positions are misplaced, or it accounts for
  all of its files.
-/
theorem refused_aborted_or_completed
    (s : Store)
    (a : Arguments) :
    WellFounded (fun m' m => Machine.Step a m m') ∧
      ((∃ e, Refused s a e) ∨
        (∃ options files, Aborted s a options files) ∨
        ∃ options files r,
          Completed s a options files r) := by
  refine ⟨Machine.wellFounded_step a, ?_⟩
  cases hOptions : resolveOptions s a with
  | error e =>
      left
      refine ⟨e, refused_of_run ?_ ?_⟩
      · exact run_of_resolveOptions_error hOptions
      · exact causedBy_of_resolveOptions hOptions
  | ok options =>
      cases hCollect :
          collect s (a.paths.map (absolutePath s)) with
      | error e =>
          left
          refine ⟨e, refused_of_run ?_ ?_⟩
          · exact run_of_collect_error hOptions hCollect
          · exact causedBy_of_collect hCollect
      | ok files =>
          right
          cases hResults :
              transformAll s
                (planOf s a options files.length) files with
          | none =>
              left
              exact ⟨options, files,
                aborted_of_collect hOptions hCollect
                  hResults⟩
          | some results =>
              right
              exact ⟨options, files, _,
                completed_of_collect hOptions hCollect
                  hResults⟩

/- A file with two marks, beside one that is in order. -/
def Marked.store : Store where
  root :=
    .dir
      [("w".toList,
        .dir
          [("a.ts".toList,
            .file (some
              (Text.byteOrderMark :: Text.byteOrderMark ::
                "@Component(/*é*/{})class A{}".toList))),
            ("b.ts".toList,
              .file (some "let b".toList))])]
  current := ["w".toList]

def Marked.arguments : Arguments where
  paths := ["a.ts".toList, "b.ts".toList]

/- The file with two marks takes the other one with it. -/
theorem aborted_marked :
    ∃ options files,
      Aborted Marked.store Marked.arguments options
        files := by
  have hRun :
      run Marked.store Marked.arguments = none := by
    decide +kernel
  rcases (refused_aborted_or_completed Marked.store
      Marked.arguments).2 with
    ⟨e, hRefused⟩ | hAborted | ⟨_, _, _, hCompleted⟩
  · cases hRun.symm.trans hRefused.result
  · exact hAborted
  · cases hRun.symm.trans hCompleted.result

end CommandLine

end ComponentLoader
