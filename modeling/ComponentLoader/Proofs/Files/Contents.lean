import Mathlib.Tactic
import ComponentLoader.Files.Write
import ComponentLoader.Proofs.Path

/-
  What there is in a store, and what becomes of it when the
  store is written to.

  A path leads to the place that its names lead to.  Making
  directories leaves every file as it was, and saving a
  file changes that file alone, or no file if it fails.

  Main declarations:
    * `Files.Entry`
    * `Files.Store.entryAt?`
    * `Files.Store.locate_eq`
    * `Files.Store.exists_fileName?`
    * `Files.Store.entryAt?_putSlot`
    * `Files.Store.Extends`
    * `Files.Store.extends_makeDirsUpTo`
    * `Files.Store.write_eq`
    * `Files.Store.fileAt?_save`
-/

------------------------------------------------------------
-- Trees
------------------------------------------------------------

namespace ComponentLoader

namespace Files

/- What stands at a place, without what is below it. -/
inductive Entry where
  | dir
  | file (content : Option Text)
  deriving DecidableEq

/- What a file holds. -/
def Entry.content? : Entry → Option (Option Text)
  | dir => none
  | file content => some content

namespace Tree

def entry : Tree → Entry
  | file content => .file content
  | dir _ => .dir

@[simp]
theorem entry_eq_dir_iff
    {t : Tree} :
    t.entry = .dir ↔ ∃ children, t = dir children := by
  cases t with
  | file content => simp [entry]
  | dir children => simp [entry]

/- One name further into a directory. -/
theorem at?_cons
    (t : Tree)
    (name : Text)
    (names : List Text) :
    t.at? (name :: names) =
      (t.child? name).bind fun below => below.at? names := by
  rw [at?]
  cases t.child? name with
  | none => rfl
  | some below => rfl

theorem at?_append
    (t : Tree)
    (names more : List Text) :
    t.at? (names ++ more) =
      (t.at? names).bind fun below => below.at? more := by
  induction names generalizing t with
  | nil => rfl
  | cons name names ih =>
      rw [List.cons_append, at?_cons, at?_cons]
      cases t.child? name with
      | none => rfl
      | some below => exact ih below

/- Something is in directories only. -/
theorem exists_dir_of_at?_append
    {t below : Tree}
    {names more : List Text}
    (hSome : more ≠ [])
    (hBelow : t.at? (names ++ more) = some below) :
    ∃ children, t.at? names = some (dir children) := by
  rw [at?_append] at hBelow
  cases hAt : t.at? names with
  | none =>
      rw [hAt] at hBelow
      cases hBelow
  | some above =>
      cases above with
      | dir children => exact ⟨children, rfl⟩
      | file content =>
          cases more with
          | nil => exact absurd rfl hSome
          | cons name more =>
              rw [hAt] at hBelow
              cases hBelow

/- What is put under names is not seen elsewhere. -/
theorem at?_put_other
    (t new : Tree)
    {names place : List Text}
    (hBelow : ¬ names <+: place)
    (hAbove : ¬ place <+: names) :
    (t.put names new).at? place = t.at? place := by
  induction names generalizing t place with
  | nil => exact absurd List.nil_prefix hBelow
  | cons name names ih =>
      cases t with
      | file content => rfl
      | dir children =>
          cases place with
          | nil => exact absurd List.nil_prefix hAbove
          | cons first place =>
              rw [put, at?_cons, at?_cons, child?, child?]
              by_cases hName : first = name
              · subst hName
                rw [List.cons_prefix_cons, not_and] at hBelow
                rw [List.cons_prefix_cons, not_and] at hAbove
                rw [Dict.get?_alter_self, Option.bind_some,
                  ih _ (hBelow rfl) (hAbove rfl)]
                cases Dict.get? children first with
                | some below => rfl
                | none =>
                    -- An empty directory stands for it, but
                    -- nothing is looked up in the place of
                    -- that directory itself.
                    cases place with
                    | nil =>
                        exact absurd List.nil_prefix
                          (hAbove rfl)
                    | cons second place => rfl
              · rw [Dict.get?_alter_other _ _ _ _ hName]

/- What is put into a directory is found there. -/
theorem at?_put_append
    {t : Tree}
    {parent : List Text}
    {children : List (Text × Tree)}
    (hParent : t.at? parent = some (dir children))
    (new : Tree)
    (name : Text)
    (more : List Text) :
    (t.put (parent ++ [name]) new).at?
        (parent ++ [name] ++ more) =
      new.at? more := by
  induction parent generalizing t with
  | nil =>
      cases hParent
      rw [List.nil_append, put, List.singleton_append,
        at?_cons, child?, Dict.get?_alter_self,
        Option.bind_some, put]
  | cons first parent ih =>
      cases t with
      | file content => cases hParent
      | dir others =>
          rw [at?_cons, child?] at hParent
          cases hBelow : Dict.get? others first with
          | none =>
              rw [hBelow] at hParent
              cases hParent
          | some below =>
              rw [hBelow, Option.bind_some] at hParent
              rw [List.cons_append, List.cons_append, put,
                at?_cons, child?, Dict.get?_alter_self,
                hBelow, Option.bind_some, Option.getD_some]
              exact ih hParent

end Tree

------------------------------------------------------------
-- Places
------------------------------------------------------------

namespace Store

/- What stands at a place. -/
def entryAt?
    (s : Store)
    (place : List Text) : Option Entry :=
  (s.root.at? place).map Tree.entry

/- What the file at a place holds, if there is one. -/
def fileAt?
    (s : Store)
    (place : List Text) : Option (Option Text) :=
  (s.entryAt? place).bind Entry.content?

/- Whether there is a directory at a place. -/
def IsDirAt
    (s : Store)
    (place : List Text) : Prop :=
  s.entryAt? place = some .dir

section Places

variable {s : Store}

theorem isDirAt_iff
    {place : List Text} :
    s.IsDirAt place ↔
      ∃ children, s.root.at? place = some (.dir children) := by
  unfold IsDirAt entryAt?
  rw [Option.map_eq_some_iff]
  constructor
  · rintro ⟨t, hAt, hDir⟩
    rcases Tree.entry_eq_dir_iff.mp hDir with ⟨children, rfl⟩
    exact ⟨children, hAt⟩
  · rintro ⟨children, hAt⟩
    exact ⟨_, hAt, rfl⟩

/- Where there is no file is a directory, or nothing. -/
theorem isDirAt_or_of_fileAt?
    {place : List Text}
    (hNone : s.fileAt? place = none) :
    s.IsDirAt place ∨ s.entryAt? place = none := by
  unfold fileAt? at hNone
  unfold IsDirAt
  cases hEntry : s.entryAt? place with
  | none => exact Or.inr rfl
  | some e =>
      cases e with
      | dir => exact Or.inl rfl
      | file content =>
          rw [hEntry] at hNone
          cases hNone

theorem fileAt?_of_isDirAt
    {place : List Text}
    (hDir : s.IsDirAt place) :
    s.fileAt? place = none := by
  rw [fileAt?, hDir]
  rfl

/- Something is in directories only. -/
theorem isDirAt_of_entryAt?_append
    {place more : List Text}
    (hSome : more ≠ [])
    {e : Entry}
    (hBelow : s.entryAt? (place ++ more) = some e) :
    s.IsDirAt place := by
  unfold entryAt? at hBelow
  rcases Option.map_eq_some_iff.mp hBelow with ⟨t, hAt, _⟩
  exact isDirAt_iff.mpr
    (Tree.exists_dir_of_at?_append hSome hAt)

theorem isDirAt_of_isPrefix
    {above place : List Text}
    (hAbove : above <+: place)
    (hDir : s.IsDirAt place) :
    s.IsDirAt above := by
  rcases hAbove with ⟨more, rfl⟩
  cases more with
  | nil => simpa using hDir
  | cons name more =>
      exact isDirAt_of_entryAt?_append
        (List.cons_ne_nil _ _) hDir

/- Every path starts in a directory. -/
theorem isDirAt_start
    (hCurrent : s.IsDirAt s.current)
    (path : Text) :
    s.IsDirAt (s.start path) := by
  unfold start
  split
  · exact isDirAt_of_isPrefix List.nil_prefix hCurrent
  · exact hCurrent

theorem start_congr
    {path other : Text}
    (hSame :
      Path.isAbsolute path = Path.isAbsolute other) :
    s.start path = s.start other := by
  unfold start
  rw [hSame]

theorem step_eq
    {place next : List Text}
    {piece : Text}
    (hStep : s.step place piece = .ok next) :
    s.IsDirAt place ∧
      next =
        if Path.isSkipped piece then place
        else Path.follow place piece := by
  unfold step at hStep
  split at hStep
  · cases hStep
  · cases hStep
  · next children hDir =>
      refine ⟨isDirAt_iff.mpr ⟨children, hDir⟩, ?_⟩
      split at hStep
      · next hSkipped =>
          cases hStep
          rw [if_pos hSkipped]
      · next hKept =>
          rw [if_neg hKept, Path.follow]
          split at hStep
          · next hDots =>
              cases hStep
              rw [if_pos hDots]
          · next hName =>
              rw [if_neg hName]
              split at hStep
              · cases hStep
                rfl
              · cases hStep

theorem walk_eq
    {place last : List Text}
    {pieces : List Text}
    (hWalk : s.walk place pieces = .ok last) :
    last =
      (pieces.filter fun piece =>
        !Path.isSkipped piece).foldl Path.follow place := by
  induction pieces generalizing place with
  | nil =>
      cases hWalk
      rfl
  | cons piece pieces ih =>
      unfold walk at hWalk
      split at hWalk
      · next between hStep =>
          have hNext := (step_eq hStep).2
          have hLast := ih hWalk
          cases hSkipped : Path.isSkipped piece with
          | true =>
              rw [hSkipped, if_pos rfl] at hNext
              rw [List.filter_cons_of_neg
                (by simp [hSkipped]), hLast, hNext]
          | false =>
              rw [hSkipped, if_neg Bool.false_ne_true]
                at hNext
              rw [List.filter_cons_of_pos
                (by simp [hSkipped]), List.foldl_cons, hLast,
                hNext]
      · cases hWalk

/- In a store, a path leads to where its names lead. -/
theorem locate_eq
    {path : Text}
    {place : List Text}
    (hLocate : s.locate path = .ok place) :
    place = Path.resolve s.current path := by
  unfold locate at hLocate
  split at hLocate
  · cases hLocate
  · exact walk_eq hLocate

theorem ne_nil_of_find?
    {path : Text}
    {t : Tree}
    (hFind : s.find? path = some t) :
    path ≠ [] := by
  rintro rfl
  cases hFind

/- What a path leads to stands somewhere. -/
theorem exists_at?_of_find?
    {path : Text}
    {t : Tree}
    (hFind : s.find? path = some t) :
    ∃ place, s.root.at? place = some t := by
  unfold find? at hFind
  split at hFind
  · next place hPlace => exact ⟨place, hFind⟩
  · cases hFind

theorem walk_append
    (place pieces more : List Text) :
    s.walk place (pieces ++ more) =
      (s.walk place pieces).bind fun next =>
        s.walk next more := by
  induction pieces generalizing place with
  | nil => rfl
  | cons piece pieces ih =>
      rw [List.cons_append, walk, walk]
      cases s.step place piece with
      | ok next => exact ih next
      | error fault => rfl

theorem walk_singleton
    (place : List Text)
    (piece : Text) :
    s.walk place [piece] = s.step place piece := by
  rw [walk]
  cases s.step place piece with
  | ok next => rfl
  | error fault => rfl

theorem walk_concat
    {place last : List Text}
    {pieces : List Text}
    {piece : Text}
    (hWalk : s.walk place (pieces ++ [piece]) = .ok last) :
    ∃ between,
      s.walk place pieces = .ok between ∧
        s.step between piece = .ok last := by
  rw [walk_append] at hWalk
  cases hBefore : s.walk place pieces with
  | error fault =>
      rw [hBefore] at hWalk
      cases hWalk
  | ok between =>
      rw [hBefore, Except.bind, walk_singleton] at hWalk
      exact ⟨between, rfl, hWalk⟩

/- A piece that is no name leads to a directory. -/
theorem isDirAt_of_step
    {place next : List Text}
    {piece : Text}
    (hStep : s.step place piece = .ok next)
    (hMoves :
      Path.isSkipped piece = true ∨ piece = ['.', '.']) :
    s.IsDirAt next := by
  rcases step_eq hStep with ⟨hDir, hNext⟩
  cases hSkipped : Path.isSkipped piece with
  | true =>
      rw [hSkipped, if_pos rfl] at hNext
      exact hNext ▸ hDir
  | false =>
      have hDots : piece = ['.', '.'] := by
        rcases hMoves with hTrue | hDots
        · exact absurd hTrue (by simp [hSkipped])
        · exact hDots
      rw [hSkipped, if_neg Bool.false_ne_true, Path.follow,
        if_pos hDots] at hNext
      rw [hNext]
      exact isDirAt_of_isPrefix (List.dropLast_prefix place)
        hDir

/- The last piece of a path to a file is a name. -/
theorem exists_fileName?
    {path : Text}
    {content : Option Text}
    (hFile : s.find? path = some (.file content)) :
    ∃ name, Path.fileName? path = some name := by
  unfold find? locate at hFile
  split at hFile
  case h_2 => cases hFile
  case h_1 place hPlace =>
    split at hPlace
    · cases hPlace
    · rcases List.eq_nil_or_concat' (Text.splitAll '/' path)
        with hNil | ⟨pieces, last, hPieces⟩
      · exact absurd hNil (Text.splitAll_ne_nil '/' path)
      · rw [hPieces] at hPlace
        rcases walk_concat hPlace with ⟨between, _, hStep⟩
        have hMoves :
            ¬ (Path.isSkipped last = true ∨
              last = ['.', '.']) := by
          intro hMoves
          rcases isDirAt_iff.mp (isDirAt_of_step hStep hMoves)
            with ⟨children, hDir⟩
          rw [hDir] at hFile
          cases hFile
        rw [not_or, Bool.not_eq_true] at hMoves
        refine ⟨last, Path.fileName?_eq_some_iff.mpr
          ⟨?_, hMoves.2⟩⟩
        rw [Path.names, hPieces]
        simp [List.filter_append, hMoves.1]

end Places

------------------------------------------------------------
-- Slots
------------------------------------------------------------

section Slots

variable {s : Store}
variable {origin pieces : List Text}
variable {slot : Slot}

/- A slot is in a directory, where the pieces lead to. -/
theorem slotOf_eq
    (hSlot : s.slotOf origin pieces = .ok slot) :
    s.walk origin pieces.tail.reverse = .ok slot.parent ∧
      s.IsDirAt slot.parent ∧
      pieces.head? = some slot.name ∧
      Path.isSkipped slot.name = false ∧
      slot.name ≠ ['.', '.'] ∧
      slot.parent ++ [slot.name] =
        (pieces.reverse.filter fun piece =>
          !Path.isSkipped piece).foldl
            Path.follow origin := by
  unfold slotOf at hSlot
  split at hSlot
  · cases hSlot
  · next last before =>
      split at hSlot
      · cases hSlot
      · next parent hWalk =>
          split at hSlot
          · next children hDir =>
              split at hSlot
              · cases hSlot
              · next hMoves =>
                  cases hSlot
                  rw [Bool.or_eq_true, decide_eq_true_eq,
                    not_or, Bool.not_eq_true] at hMoves
                  refine ⟨hWalk,
                    isDirAt_iff.mpr ⟨children, hDir⟩, rfl,
                    hMoves.1, hMoves.2, ?_⟩
                  have hParent := walk_eq hWalk
                  simp only at hParent ⊢
                  rw [List.reverse_cons, List.filter_append,
                    List.foldl_append, ← hParent]
                  simp [hMoves, Path.follow]
          · cases hSlot

/-
  A tree with nothing below it, in a slot that no directory
  is in, is seen in its own place alone.
-/
theorem entryAt?_putSlot
    (hParent : s.IsDirAt slot.parent)
    (hFree : ¬ s.IsDirAt (slot.parent ++ [slot.name]))
    {new : Tree}
    (hNew : ∀ name names, new.at? (name :: names) = none)
    (place : List Text) :
    (s.putSlot slot new).entryAt? place =
      if place = slot.parent ++ [slot.name] then
        some new.entry
      else
        s.entryAt? place := by
  rcases isDirAt_iff.mp hParent with ⟨children, hAt⟩
  have hPut := Tree.at?_put_append hAt new slot.name
  by_cases hBelow : slot.parent ++ [slot.name] <+: place
  · rcases hBelow with ⟨more, rfl⟩
    cases more with
    | nil =>
        have hSelf := hPut []
        rw [List.append_nil] at hSelf
        rw [List.append_nil, if_pos rfl, entryAt?, putSlot,
          hSelf]
        rfl
    | cons name more =>
        -- Below the slot is nothing, neither before it was
        -- filled nor after.
        rw [if_neg (by simp), entryAt?, putSlot, hPut, hNew]
        cases hEntry :
            s.entryAt?
              (slot.parent ++ [slot.name] ++ name :: more) with
        | none => rfl
        | some e =>
            exact absurd
              (isDirAt_of_entryAt?_append
                (List.cons_ne_nil _ _) hEntry) hFree
  · by_cases hAbove : place <+: slot.parent ++ [slot.name]
    · have hOther : place ≠ slot.parent ++ [slot.name] := by
        rintro rfl
        exact hBelow (List.prefix_refl _)
      have hPlace : place <+: slot.parent := by
        rcases List.prefix_concat_iff.mp hAbove with
          hEq | hPlace
        · exact absurd hEq hOther
        · exact hPlace
      have hAfter : (s.putSlot slot new).IsDirAt place := by
        rcases hAbove with ⟨more, hMore⟩
        have hSome : more ≠ [] := by
          rintro rfl
          exact hOther (by simpa using hMore)
        apply isDirAt_of_entryAt?_append hSome
        have hSelf := hPut []
        rw [List.append_nil] at hSelf
        rw [hMore, entryAt?, putSlot, hSelf]
        rfl
      rw [if_neg hOther, hAfter,
        isDirAt_of_isPrefix hPlace hParent]
    · have hOther : place ≠ slot.parent ++ [slot.name] := by
        rintro rfl
        exact hAbove (List.prefix_refl _)
      rw [if_neg hOther]
      unfold entryAt? putSlot
      rw [Tree.at?_put_other _ _ hBelow hAbove]

/- What is in a slot, as seen in its place. -/
theorem entryAt?_slot
    (s : Store)
    (slot : Slot) :
    s.entryAt? (slot.parent ++ [slot.name]) =
      (slot.content? s).map Tree.entry :=
  rfl

end Slots

------------------------------------------------------------
-- Directories
------------------------------------------------------------

/- A store with the same files, and no directory less. -/
structure Extends
    (s s' : Store) : Prop where
  current : s'.current = s.current
  files : ∀ place, s'.fileAt? place = s.fileAt? place
  dirs : ∀ place, s.IsDirAt place → s'.IsDirAt place

theorem Extends.refl
    (s : Store) :
    Extends s s :=
  ⟨rfl, fun _ => rfl, fun _ => id⟩

theorem Extends.trans
    {s s' s'' : Store}
    (hFirst : Extends s s')
    (hSecond : Extends s' s'') :
    Extends s s'' where
  current := hSecond.current.trans hFirst.current
  files := fun place =>
    (hSecond.files place).trans (hFirst.files place)
  dirs := fun place hDir =>
    hSecond.dirs place (hFirst.dirs place hDir)

theorem Extends.start
    {s s' : Store}
    (hExtends : Extends s s')
    (path : Text) :
    s'.start path = s.start path := by
  unfold Store.start
  rw [hExtends.current]

section Directories

variable {s s' : Store}
variable {path : Text}

/- A directory that is made stands where nothing was. -/
theorem makeDir_eq
    (hMade : s.makeDir path = .ok s') :
    s'.current = s.current ∧
      s.entryAt? (Path.resolve s.current path) = none ∧
      ∀ place,
        s'.entryAt? place =
          if place = Path.resolve s.current path then
            some .dir
          else
            s.entryAt? place := by
  unfold makeDir at hMade
  simp only at hMade
  split at hMade
  · cases hMade
  · split at hMade
    · cases hMade
    · next slot hSlot =>
        rcases slotOf_eq hSlot with
          ⟨_, hParent, _, _, _, hPlace⟩
        have hResolve :
            slot.parent ++ [slot.name] =
              Path.resolve s.current path := by
          rw [hPlace, Path.filter_reverse_dropWhile]
          · rfl
          · intro piece hEmpty
            simp [Path.isSkipped, hEmpty]
        split at hMade
        · cases hMade
        · next hFree =>
            cases hMade
            have hNone := entryAt?_slot s slot
            rw [hFree] at hNone
            rw [← hResolve]
            refine ⟨rfl, hNone, ?_⟩
            intro place
            rw [entryAt?_putSlot hParent]
            · rfl
            · rw [IsDirAt, hNone]
              exact (Option.some_ne_none _).symm
            · exact fun _ _ => rfl

theorem extends_makeDir
    (hMade : s.makeDir path = .ok s') :
    Extends s s' := by
  rcases makeDir_eq hMade with ⟨hCurrent, hNone, hEntry⟩
  refine ⟨hCurrent, ?_, ?_⟩
  · intro place
    unfold fileAt?
    rw [hEntry]
    split
    · next hPlace =>
        rw [hPlace, hNone]
        rfl
    · rfl
  · intro place hDir
    unfold IsDirAt at hDir ⊢
    rw [hEntry]
    split
    · rfl
    · exact hDir

theorem extends_ensureDir
    (hMade : s.ensureDir path = .ok s') :
    Extends s s' := by
  unfold ensureDir at hMade
  split at hMade
  · next made hNew =>
      cases hMade
      exact extends_makeDir hNew
  · split at hMade
    · cases hMade
      exact Extends.refl s
    · cases hMade

/- Making directories changes no files. -/
theorem extends_makeDirsUpTo
    (fuel : Nat)
    (s : Store)
    (path : Text) :
    Extends s (makeDirsUpTo fuel s path).1 := by
  fun_induction makeDirsUpTo fuel s path with
  | case1 s path => exact Extends.refl s
  | case2 fuel s path hEmpty => exact Extends.refl s
  | case3 fuel s path hEmpty s' hMade =>
      exact extends_ensureDir hMade
  | case4 fuel s path hEmpty hBlocked =>
      exact Extends.refl s
  | case5 fuel s path hEmpty hMissing hTop =>
      exact Extends.refl s
  | case6 fuel s path hEmpty hMissing above hAbove s' s''
      hLast hMade ih =>
      rw [hMade] at ih
      exact ih.trans (extends_ensureDir hLast)
  | case7 fuel s path hEmpty hMissing above hAbove s' fault
      hLast hMade ih =>
      rw [hMade] at ih
      exact ih
  | case8 fuel s path hEmpty hMissing above hAbove s' made
      hMade hFalse ih =>
      rw [hMade] at ih
      exact ih

theorem extends_makeParent
    (s : Store)
    (path : Text) :
    Extends s (s.makeParent path).1 := by
  unfold makeParent
  split
  · exact extends_makeDirsUpTo _ _ _
  · exact Extends.refl s

end Directories

------------------------------------------------------------
-- Files
------------------------------------------------------------

section Files

variable {s s' : Store}
variable {path text : Text}

/- A file that is written, and no other, is changed. -/
theorem write_eq
    (hWritten : s.write path text = .ok s') :
    s'.current = s.current ∧
      ¬ s.IsDirAt (Path.resolve s.current path) ∧
      ∀ place,
        s'.entryAt? place =
          if place = Path.resolve s.current path then
            some (.file (some text))
          else
            s.entryAt? place := by
  unfold write at hWritten
  simp only at hWritten
  split at hWritten
  · cases hWritten
  · split at hWritten
    · cases hWritten
    · next slot hSlot =>
        rcases slotOf_eq hSlot with
          ⟨_, hParent, _, _, _, hPlace⟩
        rw [List.reverse_reverse] at hPlace
        split at hWritten
        · cases hWritten
        · next hFree =>
            cases hWritten
            have hFile :
                ¬ s.IsDirAt
                  (slot.parent ++ [slot.name]) := by
              rw [isDirAt_iff]
              rintro ⟨children, hDir⟩
              exact hFree children hDir
            have hResolve :
                slot.parent ++ [slot.name] =
                  Path.resolve s.current path :=
              hPlace
            rw [← hResolve]
            refine ⟨rfl, hFile, ?_⟩
            intro place
            rw [entryAt?_putSlot hParent hFile]
            · rfl
            · exact fun _ _ => rfl

/- A store after a file was saved, or was not. -/
theorem save_cases
    (s : Store)
    (path text : Text) :
    (∃ s', s.save path text = (s', false) ∧ Extends s s') ∨
      ∃ s' s'',
        s.save path text = (s'', true) ∧
          s.makeParent path = (s', true) ∧
          Extends s s' ∧
          s'.write path text = .ok s'' := by
  have hParent := extends_makeParent s path
  unfold save
  rcases hMade : s.makeParent path with ⟨s', made⟩
  rw [hMade] at hParent
  simp only
  cases made with
  | false => exact Or.inl ⟨s', rfl, hParent⟩
  | true =>
      simp only [if_true]
      cases hWritten : s'.write path text with
      | error fault => exact Or.inl ⟨s', rfl, hParent⟩
      | ok s'' =>
          exact Or.inr ⟨s', s'', rfl, rfl, hParent, hWritten⟩

theorem current_save
    (s : Store)
    (path text : Text) :
    (s.save path text).1.current = s.current := by
  rcases save_cases s path text with
    ⟨s', hSave, hSame⟩ | ⟨s', s'', hSave, _, hSame, hWritten⟩
  · rw [hSave]
    exact hSame.current
  · rw [hSave, (write_eq hWritten).1]
    exact hSame.current

/- Saving a file changes that file alone, or nothing. -/
theorem fileAt?_save
    (s : Store)
    (path text : Text)
    (place : List Text) :
    (s.save path text).1.fileAt? place =
      if (s.save path text).2 = true ∧
          place = Path.resolve s.current path then
        some (some text)
      else
        s.fileAt? place := by
  rcases save_cases s path text with
    ⟨s', hSave, hSame⟩ | ⟨s', s'', hSave, _, hSame, hWritten⟩
  · rw [hSave]
    simpa using hSame.files place
  · rcases write_eq hWritten with ⟨_, _, hEntry⟩
    rw [hSame.current] at hEntry
    have hFile := hSame.files place
    unfold fileAt? at hFile
    rw [hSave, fileAt?, hEntry]
    split
    · next hPlace =>
        rw [if_pos ⟨rfl, hPlace⟩]
        rfl
    · next hPlace =>
        rw [if_neg fun hBoth => hPlace hBoth.2]
        exact hFile

theorem isDirAt_save
    {place : List Text}
    (hDir : s.IsDirAt place) :
    (s.save path text).1.IsDirAt place := by
  rcases save_cases s path text with
    ⟨s', hSave, hSame⟩ | ⟨s', s'', hSave, _, hSame, hWritten⟩
  · rw [hSave]
    exact hSame.dirs place hDir
  · rcases write_eq hWritten with ⟨_, hFree, hEntry⟩
    have hKept := hSame.dirs place hDir
    rw [hSave, IsDirAt, hEntry, if_neg]
    · exact hKept
    · rintro rfl
      exact hFree hKept

end Files

end Store

end Files

end ComponentLoader
