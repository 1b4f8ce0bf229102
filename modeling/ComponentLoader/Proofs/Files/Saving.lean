import Mathlib.Tactic
import ComponentLoader.Proofs.Files.Contents
import ComponentLoader.Proofs.Path.Parent

/-
  When a file can be saved: exactly if its path ends with a
  name, there is no file on the way to it, and there is no
  directory in its place.  All that is missing on the way
  is made.

  Main declarations:
    * `Files.Store.step_of_isDirAt`
    * `Files.Store.walk_cases`
    * `Files.Store.ensureDir_of_along`
    * `Files.Store.makeDirsUpTo_of_along`
    * `Files.Store.exists_write_iff`
    * `Files.Store.Savable`
    * `Files.Store.save_iff`
-/

------------------------------------------------------------
-- Ways
------------------------------------------------------------

namespace ComponentLoader

namespace Files

namespace Store

section Ways

variable {s : Store}
variable {place : List Text}

/- One piece further from a directory. -/
theorem step_of_isDirAt
    (hDir : s.IsDirAt place)
    (piece : Text) :
    s.step place piece =
      if Path.isSkipped piece then
        .ok place
      else if
          (s.entryAt? (Path.follow place piece)).isSome then
        .ok (Path.follow place piece)
      else
        .error .missing := by
  rcases isDirAt_iff.mp hDir with ⟨children, hAt⟩
  unfold step Path.follow
  rw [hAt]
  simp only
  split
  · rfl
  · split
    · have hUp : s.IsDirAt place.dropLast :=
        isDirAt_of_isPrefix (List.dropLast_prefix place) hDir
      rw [hUp]
      rfl
    · have hChild :
          (s.entryAt? (place ++ [piece])).isSome =
            Dict.contains children piece := by
        unfold entryAt? Dict.contains
        rw [Tree.at?_append, hAt, Option.bind_some,
          Tree.at?_cons, Tree.child?]
        cases Dict.get? children piece with
        | none => rfl
        | some below => rfl
      rw [hChild]

/- A way through directories can be walked. -/
theorem walk_of_along
    {pieces : List Text}
    (hAlong :
      Path.Along s.IsDirAt place
        (pieces.filter fun piece =>
          !Path.isSkipped piece)) :
    s.walk place pieces =
      .ok ((pieces.filter fun piece =>
        !Path.isSkipped piece).foldl Path.follow place) := by
  induction pieces generalizing place with
  | nil => rfl
  | cons piece pieces ih =>
      rw [walk, step_of_isDirAt hAlong.first]
      cases hSkipped : Path.isSkipped piece with
      | true =>
          rw [List.filter_cons_of_neg (by simp [hSkipped])]
            at hAlong ⊢
          exact ih hAlong
      | false =>
          rw [List.filter_cons_of_pos (by simp [hSkipped])]
            at hAlong ⊢
          have hNext := hAlong.2.first
          rw [IsDirAt] at hNext
          simp only [hNext, Bool.false_eq_true, if_false,
            Option.isSome_some, if_true]
          exact ih hAlong.2

/- Each place that is walked from is a directory. -/
theorem along_of_walk
    {pieces last : List Text}
    (hWalk : s.walk place pieces = .ok last)
    (hLast : s.IsDirAt last) :
    Path.Along s.IsDirAt place
      (pieces.filter fun piece =>
        !Path.isSkipped piece) := by
  induction pieces generalizing place with
  | nil =>
      cases hWalk
      exact hLast
  | cons piece pieces ih =>
      unfold walk at hWalk
      split at hWalk
      · next between hStep =>
          rcases step_eq hStep with ⟨hDir, hNext⟩
          have hRest := ih hWalk
          cases hSkipped : Path.isSkipped piece with
          | true =>
              rw [hSkipped, if_pos rfl] at hNext
              rw [List.filter_cons_of_neg
                (by simp [hSkipped])]
              exact hNext ▸ hRest
          | false =>
              rw [hSkipped, if_neg Bool.false_ne_true]
                at hNext
              rw [List.filter_cons_of_pos
                (by simp [hSkipped])]
              exact ⟨hDir, hNext ▸ hRest⟩
      · cases hWalk

/- Without files on a way, it is there or has gaps. -/
theorem walk_cases
    {pieces : List Text}
    (hDir : s.IsDirAt place)
    (hClear :
      Path.Along (fun q => s.fileAt? q = none) place
        (pieces.filter fun piece =>
          !Path.isSkipped piece)) :
    Path.Along s.IsDirAt place
        (pieces.filter fun piece =>
          !Path.isSkipped piece) ∨
      s.walk place pieces = .error .missing := by
  induction pieces generalizing place with
  | nil => exact Or.inl hDir
  | cons piece pieces ih =>
      rw [walk, step_of_isDirAt hDir]
      cases hSkipped : Path.isSkipped piece with
      | true =>
          rw [List.filter_cons_of_neg (by simp [hSkipped])]
            at hClear ⊢
          exact ih hDir hClear
      | false =>
          rw [List.filter_cons_of_pos (by simp [hSkipped])]
            at hClear ⊢
          rcases isDirAt_or_of_fileAt? hClear.2.first with
            hNext | hNone
          · rcases ih hNext hClear.2 with hAlong | hMissing
            · exact Or.inl ⟨hDir, hAlong⟩
            · right
              rw [IsDirAt] at hNext
              simpa [hNext] using hMissing
          · right
            simp [hNone]

end Ways

------------------------------------------------------------
-- One Directory
------------------------------------------------------------

/-
  In what follows `pieces` are those of a path before the
  last one, which is not skipped.
-/
section OneDirectory

variable {s : Store}
variable {path last : Text}
variable {pieces : List Text}

theorem isDir_of_along
    (hSome : path ≠ [])
    (hAlong :
      Path.Along s.IsDirAt (s.start path)
        (Path.names path)) :
    s.isDir path = true := by
  rcases isDirAt_iff.mp hAlong.last with ⟨children, hAt⟩
  have hLocate :
      s.locate path =
        .ok ((Path.names path).foldl Path.follow
          (s.start path)) := by
    unfold locate
    rw [if_neg (by simpa using hSome)]
    exact walk_of_along hAlong
  unfold isDir find?
  rw [hLocate]
  simp only
  rw [hAt]
  rfl

/- A directory that is there does not have to be made. -/
theorem ensureDir_of_isDirAt
    (hSome : path ≠ [])
    (hAlong :
      Path.Along s.IsDirAt (s.start path)
        (Path.names path)) :
    s.ensureDir path = .ok s := by
  unfold ensureDir
  split
  · next s' hMade =>
      have hNone := (makeDir_eq hMade).2.1
      have hDir :
          s.IsDirAt (Path.resolve s.current path) :=
        hAlong.last
      rw [IsDirAt, hNone] at hDir
      cases hDir
  · rw [if_pos (isDir_of_along hSome hAlong)]

/- The slot at the end of a way through directories. -/
theorem slotOf_of_along
    (hLast : Path.isSkipped last = false)
    (hDots : last ≠ ['.', '.'])
    {origin : List Text}
    (hAlong :
      Path.Along s.IsDirAt origin
        (pieces.filter fun piece =>
          !Path.isSkipped piece)) :
    s.slotOf origin (pieces ++ [last]).reverse =
      .ok
        { parent :=
            (pieces.filter fun piece =>
              !Path.isSkipped piece).foldl
                Path.follow origin
          name := last } := by
  rcases isDirAt_iff.mp hAlong.last with ⟨children, hAt⟩
  rw [List.reverse_append, List.reverse_singleton,
    List.singleton_append, slotOf, List.reverse_reverse,
    walk_of_along hAlong]
  simp only [hAt]
  rw [if_neg (by simp [hLast, hDots])]

variable (hPieces :
  Text.splitAll '/' path = pieces ++ [last])
variable (hLast : Path.isSkipped last = false)

include hPieces hLast

theorem ne_nil_of_splitAll :
    path ≠ [] := by
  rintro rfl
  have hOne : [[]] = pieces ++ [last] := hPieces
  cases pieces with
  | nil =>
      cases hOne
      cases hLast
  | cons piece pieces =>
      have hLength := congrArg List.length hOne
      simp at hLength

/- What making a directory comes to, by its slot. -/
theorem makeDir_of_splitAll :
    s.makeDir path =
      match
        s.slotOf (s.start path) (pieces ++ [last]).reverse
      with
      | .error fault => .error fault
      | .ok slot =>
          match slot.content? s with
          | some _ => .error .blocked
          | none => .ok (s.putSlot slot (.dir [])) := by
  have hEmpty : List.isEmpty last = false := by
    cases last with
    | nil => cases hLast
    | cons c cs => rfl
  have hKept :
      (pieces ++ [last]).reverse.dropWhile
          (fun piece => piece.isEmpty) =
        (pieces ++ [last]).reverse := by
    rw [List.reverse_append, List.reverse_singleton,
      List.singleton_append, List.dropWhile_cons,
      if_neg (by simp [hEmpty])]
  have hSome := ne_nil_of_splitAll hPieces hLast
  rw [← hKept, ← hPieces]
  exact if_neg (by simpa using hSome)

/- A directory is made if only its own name is missing. -/
theorem ensureDir_of_along
    (hAlong :
      Path.Along s.IsDirAt (s.start path)
        (pieces.filter fun piece =>
          !Path.isSkipped piece))
    (hClear :
      s.fileAt? (Path.resolve s.current path) = none) :
    ∃ s',
      s.ensureDir path = .ok s' ∧
        s'.IsDirAt (Path.resolve s.current path) ∧
        ∀ place, s'.IsDirAt place →
          s.IsDirAt place ∨
            place = Path.resolve s.current path := by
  have hNames := Path.names_eq_concat hPieces hLast
  rcases isDirAt_or_of_fileAt? hClear with hDir | hNone
  · refine ⟨s, ensureDir_of_isDirAt
      (ne_nil_of_splitAll hPieces hLast) ?_, hDir,
      fun _ => Or.inl⟩
    have hEnd : s.IsDirAt
        ((Path.names path).foldl Path.follow
          (s.start path)) :=
      hDir
    rw [hNames] at hEnd ⊢
    exact (Path.along_concat_iff last).mpr ⟨hAlong, hEnd⟩
  · have hPlace :
        Path.resolve s.current path =
          Path.follow
            ((pieces.filter fun piece =>
              !Path.isSkipped piece).foldl
                Path.follow (s.start path))
            last := by
      rw [Path.resolve, hNames, List.foldl_append]
      rfl
    have hDots : last ≠ ['.', '.'] := by
      intro hDots
      have hUp := isDirAt_of_isPrefix
        (List.dropLast_prefix _) hAlong.last
      rw [hPlace, Path.follow, if_pos hDots] at hNone
      rw [IsDirAt, hNone] at hUp
      cases hUp
    rw [Path.follow, if_neg hDots] at hPlace
    have hMake :
        ∃ s', s.makeDir path = .ok s' := by
      rw [makeDir_of_splitAll hPieces hLast,
        slotOf_of_along hLast hDots hAlong]
      rw [hPlace] at hNone
      have hFree := Option.map_eq_none_iff.mp hNone
      simp only [Slot.content?, hFree]
      exact ⟨_, rfl⟩
    rcases hMake with ⟨s', hMake⟩
    refine ⟨s', ?_, ?_, ?_⟩
    · unfold ensureDir
      rw [hMake]
    · rw [IsDirAt, (makeDir_eq hMake).2.2, if_pos rfl]
    · intro place hDir
      rw [IsDirAt, (makeDir_eq hMake).2.2] at hDir
      split at hDir
      · next hEq => exact Or.inr hEq
      · exact Or.inl hDir

/- Above a directory that is missing there may be more. -/
theorem ensureDir_of_missing
    (hWalk :
      s.walk (s.start path) pieces = .error .missing) :
    s.ensureDir path = .error .missing := by
  have hMake : s.makeDir path = .error .missing := by
    rw [makeDir_of_splitAll hPieces hLast,
      List.reverse_append, List.reverse_singleton,
      List.singleton_append, slotOf, List.reverse_reverse,
      hWalk]
  have hNone : s.isDir path = false := by
    unfold isDir find? locate
    rw [if_neg
      (by simpa using ne_nil_of_splitAll hPieces hLast),
      hPieces, walk_append, hWalk]
    rfl
  unfold ensureDir
  rw [hMake]
  simp only [hNone]
  rfl

/-
  A store in which all of a way but its end is made, and
  nothing else, can be completed.
-/
theorem ensureDir_of_extends
    {now : Store}
    (hExtends : Extends s now)
    (hAlong :
      Path.Along now.IsDirAt (s.start path)
        (pieces.filter fun piece =>
          !Path.isSkipped piece))
    (hOld :
      ∀ place,
        Path.Along (fun q => q ≠ place) (s.start path)
          (pieces.filter fun piece =>
            !Path.isSkipped piece) →
          now.IsDirAt place → s.IsDirAt place)
    (hClear :
      s.fileAt? (Path.resolve s.current path) = none) :
    ∃ s',
      now.ensureDir path = .ok s' ∧
        Path.Along s'.IsDirAt (s.start path)
          (Path.names path) ∧
        ∀ place,
          Path.Along (fun q => q ≠ place) (s.start path)
            (Path.names path) →
            s'.IsDirAt place → s.IsDirAt place := by
  have hStart := hExtends.start path
  have hNames := Path.names_eq_concat hPieces hLast
  rw [← hExtends.files, ← hExtends.current] at hClear
  rw [← hStart] at hAlong
  rcases ensureDir_of_along hPieces hLast hAlong hClear with
    ⟨s', hMade, hDir, hNew⟩
  rw [hExtends.current] at hDir hNew
  rw [hStart] at hAlong
  have hKept := extends_ensureDir hMade
  refine ⟨s', hMade, ?_, ?_⟩
  · have hEnd : s'.IsDirAt
        ((Path.names path).foldl Path.follow
          (s.start path)) :=
      hDir
    rw [hNames] at hEnd ⊢
    exact (Path.along_concat_iff last).mpr
      ⟨hAlong.imp hKept.dirs, hEnd⟩
  · intro place hOther hPlace
    have hEnd : Path.resolve s.current path ≠ place :=
      hOther.last
    rw [hNames, Path.along_concat_iff] at hOther
    rcases hNew place hPlace with hNow | hEq
    · exact hOld place hOther.1 hNow
    · exact absurd hEq.symm hEnd

end OneDirectory

------------------------------------------------------------
-- All Directories On A Way
------------------------------------------------------------

section AllDirectories

variable {s : Store}

/-
  If there are no files on a way, the directories on it can
  be made, and no others are.
-/
theorem makeDirsUpTo_of_along
    (fuel : Nat)
    {path : Text}
    (hFuel : path.length < fuel)
    (hTrimmed : Path.IsTrimmed path)
    (hStart : s.IsDirAt (s.start path))
    (hClear :
      Path.Along (fun q => s.fileAt? q = none)
        (s.start path) (Path.names path)) :
    ∃ s',
      makeDirsUpTo fuel s path = (s', true) ∧
        Path.Along s'.IsDirAt (s.start path)
          (Path.names path) ∧
        ∀ place,
          Path.Along (fun q => q ≠ place) (s.start path)
            (Path.names path) →
            s'.IsDirAt place → s.IsDirAt place := by
  induction fuel generalizing path with
  | zero => exact absurd hFuel (Nat.not_lt_zero _)
  | succ fuel ih =>
      -- A start alone is there already.
      have hOwn :
          path ≠ [] → Path.names path = [] →
            makeDirsUpTo (fuel + 1) s path = (s, true) := by
        intro hSome hNil
        have hAlong :
            Path.Along s.IsDirAt (s.start path)
              (Path.names path) := by
          rw [hNil]
          exact hStart
        rw [makeDirsUpTo, if_neg (by simpa using hSome),
          ensureDir_of_isDirAt hSome hAlong]
      rcases hTrimmed with
        rfl | rfl | rfl | ⟨pieces, last, hPieces, hLast⟩
      · exact ⟨s, rfl, hStart, fun _ _ => id⟩
      · exact ⟨s, hOwn (by decide) rfl, hStart,
          fun _ _ => id⟩
      · exact ⟨s, hOwn (by decide) rfl, hStart,
          fun _ _ => id⟩
      · have hEnd :
            s.fileAt? (Path.resolve s.current path) = none :=
          hClear.last
        have hSome := ne_nil_of_splitAll hPieces hLast
        rw [Path.names_eq_concat hPieces hLast,
          Path.along_concat_iff] at hClear
        rw [makeDirsUpTo, if_neg (by simpa using hSome)]
        rcases walk_cases hStart hClear.1 with
          hAlong | hMissing
        · rcases ensureDir_of_extends hPieces hLast
            (Extends.refl s) hAlong (fun _ _ => id) hEnd with
            ⟨s', hMade, hWay, hOld⟩
          rw [hMade]
          exact ⟨s', rfl, hWay, hOld⟩
        · rcases Path.exists_parent hPieces hLast with
            ⟨above, hParent, hLength, hNames, hSame,
              hAbove⟩
          have hOrigin := @start_congr s above path hSame
          rw [← hOrigin] at hStart
          rw [← hNames, ← hOrigin] at hClear
          rcases ih (by omega) hAbove hStart hClear.1 with
            ⟨now, hNow, hAlong, hOld⟩
          have hExtends :=
            extends_makeDirsUpTo fuel s above
          rw [hNow] at hExtends
          rw [hNames, hOrigin] at hAlong
          simp only [hNames, hOrigin] at hOld
          rcases ensureDir_of_extends hPieces hLast hExtends
            hAlong hOld hEnd with ⟨s', hMade, hWay, hNew⟩
          rw [ensureDir_of_missing hPieces hLast hMissing]
          simp only [hParent, hNow, hMade]
          exact ⟨s', rfl, hWay, hNew⟩

end AllDirectories

------------------------------------------------------------
-- Files
------------------------------------------------------------

/- Whether a file can be saved under a path. -/
structure Savable
    (s : Store)
    (path : Text) : Prop where
  named : Path.EndsWithName path
  /- On the way is no file, and not what it leads to. -/
  clear :
    Path.Along
      (fun place =>
        s.fileAt? place = none ∧
          place ≠ Path.resolve s.current path)
      (s.start path) (Path.names path).dropLast
  /- There is no directory in its place. -/
  free : ¬ s.IsDirAt (Path.resolve s.current path)

section Files

variable {s : Store}
variable {path text : Text}

/- A file can be written if its directory is there. -/
theorem exists_write_iff :
    (∃ s', s.write path text = .ok s') ↔
      Path.EndsWithName path ∧
        Path.Along s.IsDirAt (s.start path)
          (Path.names path).dropLast ∧
        ¬ s.IsDirAt (Path.resolve s.current path) := by
  constructor
  · rintro ⟨s', hWritten⟩
    have hFree := (write_eq hWritten).2.1
    unfold write at hWritten
    simp only at hWritten
    split at hWritten
    · cases hWritten
    · split at hWritten
      · cases hWritten
      · next slot hSlot =>
          rcases slotOf_eq hSlot with
            ⟨hWalk, hParent, hHead, hKept, hDots, _⟩
          rw [List.head?_reverse] at hHead
          rcases List.getLast?_eq_some_iff.mp hHead with
            ⟨pieces, hPieces⟩
          refine ⟨⟨pieces, slot.name, hPieces, hKept, hDots⟩,
            ?_, hFree⟩
          rw [hPieces, List.reverse_append,
            List.reverse_singleton, List.singleton_append,
            List.tail_cons, List.reverse_reverse] at hWalk
          rw [Path.names_eq_concat hPieces hKept,
            List.dropLast_concat]
          exact along_of_walk hWalk hParent
  · rintro ⟨⟨pieces, name, hPieces, hKept, hDots⟩, hAlong,
      hFree⟩
    have hNames := Path.names_eq_concat hPieces hKept
    rw [hNames, List.dropLast_concat] at hAlong
    have hPlace :
        Path.resolve s.current path =
          (pieces.filter fun piece =>
            !Path.isSkipped piece).foldl Path.follow
              (s.start path) ++ [name] := by
      rw [Path.resolve, hNames, List.foldl_append,
        List.foldl_cons, List.foldl_nil, Path.follow,
        if_neg hDots]
      rfl
    rw [hPlace, isDirAt_iff] at hFree
    unfold write
    rw [if_neg
      (by simpa using ne_nil_of_splitAll hPieces hKept)]
    simp only [hPieces, slotOf_of_along hKept hDots hAlong]
    split
    · next children hDir =>
        exact absurd ⟨children, hDir⟩ hFree
    · exact ⟨_, rfl⟩

theorem savable_of_save
    (hSaved : (s.save path text).2 = true) :
    s.Savable path := by
  rcases save_cases s path text with
    ⟨s', hSave, _⟩ | ⟨s', s'', _, _, hExtends, hWritten⟩
  · rw [hSave] at hSaved
    cases hSaved
  · rcases exists_write_iff.mp ⟨s'', hWritten⟩ with
      ⟨hNamed, hAlong, hFree⟩
    rw [hExtends.start] at hAlong
    rw [hExtends.current] at hFree
    refine ⟨hNamed, ?_, ?_⟩
    · apply hAlong.imp
      intro place hDir
      refine ⟨?_, ?_⟩
      · rw [← hExtends.files]
        exact fileAt?_of_isDirAt hDir
      · rintro rfl
        exact hFree hDir
    · intro hDir
      exact hFree (hExtends.dirs _ hDir)

/- The directory of a file that can be saved is made. -/
theorem exists_makeParent
    (hStart : s.IsDirAt (s.start path))
    (hSavable : s.Savable path) :
    ∃ s',
      s.makeParent path = (s', true) ∧
        Path.Along s'.IsDirAt (s.start path)
          (Path.names path).dropLast ∧
        ¬ s'.IsDirAt (Path.resolve s.current path) := by
  rcases hSavable with
    ⟨⟨pieces, name, hPieces, hKept, _⟩, hClear, hFree⟩
  rcases Path.exists_parent hPieces hKept with
    ⟨above, hParent, _, hNames, hSame, hTrimmed⟩
  have hInit :
      (Path.names path).dropLast = Path.names above := by
    rw [Path.names_eq_concat hPieces hKept,
      List.dropLast_concat, hNames]
  have hOrigin := @start_congr s above path hSame
  rw [hInit] at hClear ⊢
  rw [← hOrigin] at hStart hClear ⊢
  rcases makeDirsUpTo_of_along (above.length + 1)
      (Nat.lt_succ_self _) hTrimmed hStart
      (hClear.imp fun _ => And.left) with
    ⟨s', hMade, hAlong, hOld⟩
  refine ⟨s', ?_, hAlong, ?_⟩
  · unfold makeParent
    rw [hParent]
    exact hMade
  · intro hDir
    exact hFree (hOld _ (hClear.imp fun _ => And.right) hDir)

/-
  A file can be saved if and only if its path ends with a
  name, no file is on the way, and no directory in place.
-/
theorem save_iff
    (hStart : s.IsDirAt (s.start path)) :
    (s.save path text).2 = true ↔ s.Savable path := by
  constructor
  · exact savable_of_save
  · intro hSavable
    rcases exists_makeParent hStart hSavable with
      ⟨s', hMade, hAlong, hFree⟩
    have hExtends := extends_makeParent s path
    rw [hMade] at hExtends
    rw [← hExtends.start] at hAlong
    rw [← hExtends.current] at hFree
    rcases (@exists_write_iff s' path text).mpr
        ⟨hSavable.named, hAlong, hFree⟩ with
      ⟨s'', hWritten⟩
    unfold save
    rw [hMade]
    simp only [if_true, hWritten]

end Files

end Store

end Files

end ComponentLoader
