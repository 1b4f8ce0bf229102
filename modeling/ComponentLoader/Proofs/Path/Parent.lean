import Mathlib.Tactic
import ComponentLoader.Proofs.Path

/-
  The directory of a path: the path without its last name,
  which is shorter, starts at the same place, and does not
  end with anything that is skipped.

  Main declarations:
    * `Path.trimPieces_cons`
    * `Path.parent?_eq`
    * `Path.IsTrimmed`
    * `Path.exists_parent`
-/

------------------------------------------------------------
-- Trimmed Pieces
------------------------------------------------------------

namespace ComponentLoader

namespace Path

theorem trimPieces_cons
    (piece : Text)
    (pieces : List Text) :
    trimPieces (piece :: pieces) =
      if trimPieces pieces = [] then
        if isSkipped piece then [] else [piece]
      else
        piece :: trimPieces pieces := by
  unfold trimPieces
  rw [List.reverse_cons, List.dropWhile_append]
  cases hRest : pieces.reverse.dropWhile isSkipped with
  | nil =>
      cases hSkipped : isSkipped piece with
      | true => simp [hSkipped]
      | false => simp [hSkipped]
  | cons last before => simp

theorem getLast?_trimPieces
    {pieces : List Text}
    {last : Text}
    (hLast : (trimPieces pieces).getLast? = some last) :
    isSkipped last = false := by
  unfold trimPieces at hLast
  rw [List.getLast?_reverse] at hLast
  have hHead := List.head?_dropWhile_not isSkipped
    pieces.reverse
  rw [hLast] at hHead
  exact hHead

theorem dropWhile_reverse_concat
    {pieces : List Text}
    {last : Text}
    (hLast : isSkipped last = false) :
    (pieces ++ [last]).reverse.dropWhile isSkipped =
      last :: pieces.reverse := by
  rw [List.reverse_append, List.reverse_singleton,
    List.singleton_append, List.dropWhile_cons,
    if_neg (by simp [hLast])]

------------------------------------------------------------
-- Directories
------------------------------------------------------------

/- How a path can start. -/
theorem parts_cases
    (path : Text) :
    (∃ rest, path = '/' :: rest ∧
        parts path =
          { start := ['/']
            pieces := Text.splitAll '/' rest }) ∨
      path = ['.'] ∨
      (∃ rest, path = '.' :: '/' :: rest ∧
        parts path =
          { start := ['.']
            pieces := [] :: Text.splitAll '/' rest }) ∨
      (isAbsolute path = false ∧
        parts path =
          { start := []
            pieces := Text.splitAll '/' path }) := by
  cases hRoot : isAbsolute path with
  | true =>
      cases path with
      | nil => cases hRoot
      | cons c rest =>
          have hSlash : c = '/' := by
            simpa [isAbsolute] using hRoot
          subst hSlash
          exact Or.inl ⟨rest, rfl, rfl⟩
  | false =>
      cases hDot : startsWithDot path with
      | false =>
          refine Or.inr (Or.inr (Or.inr ⟨rfl, ?_⟩))
          simp [parts, hRoot, hDot]
      | true =>
          unfold startsWithDot at hDot
          split at hDot
          · exact Or.inr (Or.inl rfl)
          · next rest =>
              exact Or.inr (Or.inr (Or.inl
                ⟨rest, rfl, by simp [parts, hRoot,
                  startsWithDot, Text.splitAll]⟩))
          · cases hDot

section Parent

variable {path last : Text}
variable {pieces : List Text}

theorem exists_of_cons_eq_concat
    {first : Text}
    {rest : List Text}
    (hSome : rest ≠ [])
    (hEq : first :: rest = pieces ++ [last]) :
    ∃ before,
      pieces = first :: before ∧ rest = before ++ [last] := by
  cases pieces with
  | nil =>
      cases hEq
      exact absurd rfl hSome
  | cons other before =>
      rw [List.cons_append, List.cons.injEq] at hEq
      exact ⟨before, by rw [hEq.1], hEq.2⟩

/- What stands before the last of some pieces. -/
theorem parent?_of_parts
    (hPieces : (parts path).pieces = pieces ++ [last])
    (hLast : isSkipped last = false) :
    parent? path =
      some ((parts path).start ++
        Text.join ['/'] (trimPieces pieces)) := by
  unfold parent?
  simp only [hPieces, dropWhile_reverse_concat hLast]
  rfl

variable (hPieces :
  Text.splitAll '/' path = pieces ++ [last])
variable (hLast : isSkipped last = false)

include hPieces hLast

/- The directory of a path, by the pieces before its end. -/
theorem parent?_eq :
    parent? path =
      some
        (if trimPieces pieces = [] then
          (parts path).start
        else
          Text.join ['/'] (trimPieces pieces)) := by
  rcases parts_cases path with
    ⟨rest, rfl, hParts⟩ | rfl | ⟨rest, rfl, hParts⟩ |
      ⟨_, hParts⟩
  · rcases exists_of_cons_eq_concat
        (Text.splitAll_ne_nil '/' rest) hPieces with
      ⟨before, rfl, hRest⟩
    rw [parent?_of_parts (by rw [hParts, hRest]) hLast,
      hParts, trimPieces_cons]
    cases trimPieces before with
    | nil => rfl
    | cons piece more => rfl
  · cases pieces with
    | nil =>
        cases hPieces
        cases hLast
    | cons first pieces =>
        have hLength := congrArg List.length hPieces
        simp [Text.splitAll] at hLength
  · rcases exists_of_cons_eq_concat
        (Text.splitAll_ne_nil '/' rest) hPieces with
      ⟨before, rfl, hRest⟩
    have hEnd :
        (parts ('.' :: '/' :: rest)).pieces =
          ([] :: before) ++ [last] := by
      rw [hParts, hRest]
      rfl
    rw [parent?_of_parts hEnd hLast, hParts,
      trimPieces_cons, trimPieces_cons]
    cases trimPieces before with
    | nil => rfl
    | cons piece more => rfl
  · have hEnd : (parts path).pieces = pieces ++ [last] := by
      rw [hParts, hPieces]
    rw [parent?_of_parts hEnd hLast, hParts]
    cases trimPieces pieces with
    | nil => rfl
    | cons piece more => rfl

end Parent

/- Whether the last piece of a path is the name of a file. -/
def EndsWithName
    (path : Text) : Prop :=
  ∃ pieces name,
    Text.splitAll '/' path = pieces ++ [name] ∧
      isSkipped name = false ∧ name ≠ ['.', '.']

/-
  Whether a path ends with a name or dots, unless it is no
  more than a start.
-/
def IsTrimmed
    (path : Text) : Prop :=
  path = [] ∨ path = ['/'] ∨ path = ['.'] ∨
    ∃ pieces last,
      Text.splitAll '/' path = pieces ++ [last] ∧
        isSkipped last = false

theorem start_cases
    (path : Text) :
    (parts path).start = [] ∨ (parts path).start = ['/'] ∨
      (parts path).start = ['.'] := by
  rcases parts_cases path with
    ⟨_, _, hParts⟩ | rfl | ⟨_, _, hParts⟩ | ⟨_, hParts⟩
  · exact Or.inr (Or.inl (by rw [hParts]))
  · exact Or.inr (Or.inr rfl)
  · exact Or.inr (Or.inr (by rw [hParts]))
  · exact Or.inl (by rw [hParts])

theorem isAbsolute_start
    (path : Text) :
    isAbsolute (parts path).start = isAbsolute path := by
  rcases parts_cases path with
    ⟨_, rfl, hParts⟩ | rfl | ⟨_, rfl, hParts⟩ |
      ⟨hRelative, hParts⟩
  · rfl
  · rfl
  · rfl
  · rw [hParts, hRelative]
    rfl

theorem start_isPrefix
    (path : Text) :
    (parts path).start <+: path := by
  rcases parts_cases path with
    ⟨rest, rfl, hParts⟩ | rfl | ⟨rest, rfl, hParts⟩ |
      ⟨_, hParts⟩
  · exact ⟨rest, by rw [hParts]; rfl⟩
  · exact List.prefix_refl _
  · exact ⟨'/' :: rest, by rw [hParts]; rfl⟩
  · rw [hParts]
    exact List.nil_prefix

section Above

variable {path last : Text}
variable {pieces : List Text}
variable (hPieces :
  Text.splitAll '/' path = pieces ++ [last])
variable (hLast : isSkipped last = false)

include hPieces hLast

theorem names_eq_concat :
    names path =
      (pieces.filter fun piece => !isSkipped piece) ++
        [last] := by
  unfold names
  rw [hPieces, List.filter_append]
  simp [hLast]

/- What is left of a path without its last name. -/
theorem parent?_cases :
    ∃ above,
      parent? path = some above ∧
        above <+: path ∧
        names above =
          (pieces.filter fun piece => !isSkipped piece) ∧
        isAbsolute above = isAbsolute path ∧
        IsTrimmed above := by
  have hKept := filter_trimPieces pieces
  have hParent := parent?_eq hPieces hLast
  by_cases hNil : trimPieces pieces = []
  · rw [if_pos hNil] at hParent
    rw [hNil, List.filter_nil] at hKept
    refine ⟨(parts path).start, hParent, start_isPrefix path,
      ?_, isAbsolute_start path, ?_⟩
    · rw [← hKept]
      rcases start_cases path with hStart | hStart | hStart
      · rw [hStart]
        rfl
      · rw [hStart]
        rfl
      · rw [hStart]
        rfl
    · rcases start_cases path with hStart | hStart | hStart
      · exact Or.inl hStart
      · exact Or.inr (Or.inl hStart)
      · exact Or.inr (Or.inr (Or.inl hStart))
  · rw [if_neg hNil] at hParent
    have hFirst : trimPieces pieces <+: pieces ++ [last] :=
      (trimPieces_isPrefix pieces).trans
        (List.prefix_append _ _)
    have hSlash :
        ∀ piece ∈ trimPieces pieces, '/' ∉ piece := by
      intro piece hMem
      apply Text.not_mem_of_mem_splitAll
      rw [hPieces]
      exact hFirst.subset hMem
    have hAbove :
        Text.join ['/'] (trimPieces pieces) <+: path := by
      have hJoin := @Text.join_isPrefix ['/'] _ _ hFirst
      rw [← hPieces, Text.join_splitAll] at hJoin
      exact hJoin
    have hCut := Text.splitAll_join hNil hSlash
    have hEnd := List.getLast?_eq_some_getLast hNil
    have hTrimmed :
        isSkipped ((trimPieces pieces).getLast hNil) =
          false :=
      getLast?_trimPieces hEnd
    refine ⟨_, hParent, hAbove, ?_, ?_, ?_⟩
    · rw [names_join_pieces hSlash, hKept]
    · -- A path that is not empty has its first character
      -- from the path that it is the start of.
      rcases hAbove with ⟨rest, hRest⟩
      cases hText : Text.join ['/'] (trimPieces pieces) with
      | nil =>
          rw [hText] at hCut
          have hOne : trimPieces pieces = [[]] := hCut.symm
          simp only [hOne, List.getLast_singleton]
            at hTrimmed
          cases hTrimmed
      | cons c cs =>
          rw [hText] at hRest
          rw [← hRest]
          rfl
    · refine Or.inr (Or.inr (Or.inr
        ⟨(trimPieces pieces).dropLast,
          (trimPieces pieces).getLast hNil, ?_, hTrimmed⟩))
      rw [hCut, List.dropLast_append_getLast hNil]

theorem exists_parent :
    ∃ above,
      parent? path = some above ∧
        above.length < path.length ∧
        names above =
          (pieces.filter fun piece => !isSkipped piece) ∧
        isAbsolute above = isAbsolute path ∧
        IsTrimmed above := by
  rcases parent?_cases hPieces hLast with
    ⟨above, hParent, hAbove, hNames, hSame, hTrimmed⟩
  refine ⟨above, hParent, ?_, hNames, hSame, hTrimmed⟩
  apply lt_of_le_of_ne hAbove.length_le
  intro hLength
  have hEq := hAbove.eq_of_length hLength
  rw [hEq, names_eq_concat hPieces hLast] at hNames
  simp at hNames

end Above

end Path

end ComponentLoader
