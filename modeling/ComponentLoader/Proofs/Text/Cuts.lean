import Mathlib.Tactic
import ComponentLoader.Text.Basic

/-
  Joining texts and cutting them undo each other: at a
  character, as long as it is in none of them, and at a
  byte position, if it is the size of what is before it.

  Main declarations:
    * `splitOnce_append`
    * `splitOnce_eq_none`
    * `splitAll_append_sep`
    * `splitAll_join`
    * `slice?_append`
    * `HasCut`
    * `between?_eq_some_iff`
    * `takeBytes_append`
    * `dropBytes_append`
    * `exists_append_of_size_le`
    * `append_inj_of_size`
    * `endsWith_iff`
-/

------------------------------------------------------------
-- The First Separator
------------------------------------------------------------

namespace ComponentLoader

namespace Text

/- A text is cut at the first separator. -/
theorem splitOnce_append
    {sep : Char}
    (before rest : Text)
    (hBefore : sep ∉ before) :
    splitOnce sep (before ++ sep :: rest) =
      some (before, rest) := by
  induction before with
  | nil => simp [splitOnce]
  | cons c cs ih =>
      have hHead : c ≠ sep :=
        (List.ne_of_not_mem_cons hBefore).symm
      have hTail : sep ∉ cs :=
        List.not_mem_of_not_mem_cons hBefore
      simp [splitOnce, hHead, ih hTail]

/- There is no cut in a text without separators. -/
theorem splitOnce_eq_none
    {sep : Char}
    {t : Text}
    (hText : sep ∉ t) :
    splitOnce sep t = none := by
  induction t with
  | nil => rfl
  | cons c cs ih =>
      have hHead : c ≠ sep :=
        (List.ne_of_not_mem_cons hText).symm
      have hTail : sep ∉ cs :=
        List.not_mem_of_not_mem_cons hText
      simp [splitOnce, hHead, ih hTail]

------------------------------------------------------------
-- All Separators
------------------------------------------------------------

/- A text without separators is one piece. -/
theorem splitAll_of_not_mem
    {sep : Char}
    {t : Text}
    (hText : sep ∉ t) :
    splitAll sep t = [t] := by
  induction t with
  | nil => rfl
  | cons c cs ih =>
      have hHead : c ≠ sep :=
        (List.ne_of_not_mem_cons hText).symm
      have hTail : sep ∉ cs :=
        List.not_mem_of_not_mem_cons hText
      simp [splitAll, hHead, ih hTail]

/- A piece ends at the first separator. -/
theorem splitAll_append
    {sep : Char}
    (piece rest : Text)
    (hPiece : sep ∉ piece) :
    splitAll sep (piece ++ sep :: rest) =
      piece :: splitAll sep rest := by
  induction piece with
  | nil => simp [splitAll]
  | cons c cs ih =>
      have hHead : c ≠ sep :=
        (List.ne_of_not_mem_cons hPiece).symm
      have hTail : sep ∉ cs :=
        List.not_mem_of_not_mem_cons hPiece
      simp [splitAll, hHead, ih hTail]

/- A text has at least one piece. -/
theorem splitAll_ne_nil
    (sep : Char)
    (t : Text) :
    splitAll sep t ≠ [] := by
  cases t with
  | nil => simp [splitAll]
  | cons c cs =>
      unfold splitAll
      split
      · simp
      · split
        · simp
        · simp

/- At a separator the pieces of both sides meet. -/
theorem splitAll_append_sep
    (sep : Char)
    (before rest : Text) :
    splitAll sep (before ++ sep :: rest) =
      splitAll sep before ++ splitAll sep rest := by
  induction before with
  | nil => simp [splitAll]
  | cons c cs ih =>
      by_cases hSep : c = sep
      · simp [splitAll, hSep, ih]
      · rcases List.exists_cons_of_ne_nil
            (splitAll_ne_nil sep cs) with
          ⟨piece, pieces, hPieces⟩
        simp [splitAll, hSep, ih, hPieces]

/- There is no separator in a piece. -/
theorem not_mem_of_mem_splitAll
    {sep : Char}
    {t piece : Text}
    (hPiece : piece ∈ splitAll sep t) :
    sep ∉ piece := by
  induction t generalizing piece with
  | nil =>
      rw [splitAll, List.mem_singleton] at hPiece
      simp [hPiece]
  | cons c cs ih =>
      rcases List.exists_cons_of_ne_nil
          (splitAll_ne_nil sep cs) with
        ⟨first, pieces, hPieces⟩
      rw [hPieces] at ih
      by_cases hSep : c = sep
      · simp only [splitAll, if_pos hSep, hPieces,
          List.mem_cons] at hPiece
        rcases hPiece with rfl | hPiece
        · simp
        · exact ih (List.mem_cons.mpr hPiece)
      · simp only [splitAll, if_neg hSep, hPieces,
          List.mem_cons] at hPiece
        rcases hPiece with rfl | hPiece
        · have hFirst := ih List.mem_cons_self
          simp [Ne.symm hSep, hFirst]
        · exact ih (List.mem_cons_of_mem first hPiece)

/- Joined pieces are cut where they were joined. -/
theorem splitAll_join
    {sep : Char}
    {pieces : List Text}
    (hSome : pieces ≠ [])
    (hPieces : ∀ piece ∈ pieces, sep ∉ piece) :
    splitAll sep (join [sep] pieces) = pieces := by
  induction pieces with
  | nil => exact absurd rfl hSome
  | cons piece rest ih =>
      have hPiece : sep ∉ piece := hPieces piece (by simp)
      cases rest with
      | nil => simpa [join] using splitAll_of_not_mem hPiece
      | cons next more =>
          have hMore := ih (by simp) fun p hMem =>
            hPieces p (List.mem_cons_of_mem piece hMem)
          have hJoin :
              join [sep] (piece :: next :: more) =
                piece ++ sep :: join [sep] (next :: more) := by
            simp [join]
          rw [hJoin, splitAll_append piece _ hPiece, hMore]

theorem join_cons_cons
    (sep piece next : Text)
    (more : List Text) :
    join sep (piece :: next :: more) =
      piece ++ sep ++ join sep (next :: more) :=
  rfl

/- The pieces of a text make the text. -/
theorem join_splitAll
    (sep : Char)
    (t : Text) :
    join [sep] (splitAll sep t) = t := by
  induction t with
  | nil => rfl
  | cons c cs ih =>
      rcases List.exists_cons_of_ne_nil
          (splitAll_ne_nil sep cs) with
        ⟨piece, pieces, hPieces⟩
      rw [hPieces] at ih
      by_cases hSep : c = sep
      · simp [splitAll, hSep, hPieces, join, ih]
      · cases pieces with
        | nil =>
            simp only [join] at ih
            simp [splitAll, hSep, hPieces, join, ih]
        | cons next more =>
            rw [join_cons_cons] at ih
            simp only [splitAll, hSep, hPieces, if_false,
              join_cons_cons, List.cons_append, ih]

/- The first of some pieces make the start of a text. -/
theorem join_isPrefix
    {sep : Text}
    {first pieces : List Text}
    (hFirst : first <+: pieces) :
    join sep first <+: join sep pieces := by
  rcases hFirst with ⟨rest, rfl⟩
  induction first with
  | nil => exact List.nil_prefix
  | cons piece first ih =>
      cases first with
      | nil =>
          cases rest with
          | nil => exact List.prefix_refl _
          | cons next more =>
              exact ⟨sep ++ join sep (next :: more),
                by simp [join]⟩
      | cons next more =>
          rcases ih with ⟨after, hAfter⟩
          refine ⟨after, ?_⟩
          rw [List.cons_append] at hAfter
          rw [List.cons_append, List.cons_append,
            join_cons_cons, join_cons_cons, ← hAfter,
            List.append_assoc]

------------------------------------------------------------
-- Byte Positions
------------------------------------------------------------

/- A text is cut after the bytes of its first part. -/
theorem splitAt?_append
    (s t : Text) :
    splitAt? (size s) (s ++ t) = some (s, t) := by
  induction s with
  | nil => simp [size, splitAt?]
  | cons c cs ih =>
      have hWidth : 0 < c.utf8Size := Char.utf8Size_pos c
      rcases Nat.exists_eq_add_of_lt hWidth with ⟨n, hSize⟩
      have hTotal :
          size (c :: cs) = n + size cs + 1 := by
        simp only [size]
        omega
      have hFits :
          ¬ n + size cs + 1 < c.utf8Size := by
        omega
      have hLeft :
          n + size cs + 1 - c.utf8Size = size cs := by
        omega
      rw [hTotal, List.cons_append, splitAt?,
        if_neg hFits, hLeft, ih]

/- The middle of three parts is between their sizes. -/
theorem slice?_append
    (before part after : Text) :
    slice? (before ++ part ++ after)
        (size before) (size before + size part) =
      some part := by
  unfold slice?
  rw [List.append_assoc, splitAt?_append]
  simp only [Nat.add_sub_cancel_left]
  rw [splitAt?_append]

/- Only the empty text takes no bytes. -/
theorem eq_nil_of_size
    {t : Text}
    (hSize : size t = 0) :
    t = [] := by
  cases t with
  | nil => rfl
  | cons c cs =>
      have hWidth : 0 < c.utf8Size := Char.utf8Size_pos c
      simp only [size] at hSize
      omega

/- Of two starts of a text the smaller starts the other. -/
theorem exists_append_of_size_le
    {s t s' t' : Text}
    (hText : s ++ t = s' ++ t')
    (hSize : size s ≤ size s') :
    ∃ m, s' = s ++ m ∧ t = m ++ t' := by
  rcases List.append_eq_append_iff.mp hText with
    ⟨m, hStart, hRest⟩ | ⟨m, hStart, hRest⟩
  · exact ⟨m, hStart, hRest⟩
  · have hEmpty : m = [] := by
      apply eq_nil_of_size
      rw [hStart, size_append] at hSize
      omega
    subst hEmpty
    refine ⟨[], ?_, ?_⟩
    · simpa using hStart.symm
    · simpa using hRest.symm

/- Starts of a text of one size are the same. -/
theorem append_inj_of_size
    {s t s' t' : Text}
    (hText : s ++ t = s' ++ t')
    (hSize : size s = size s') :
    s = s' ∧ t = t' := by
  rcases exists_append_of_size_le hText (Nat.le_of_eq hSize)
    with ⟨m, rfl, rfl⟩
  have hEmpty : m = [] := by
    apply eq_nil_of_size
    rw [size_append] at hSize
    omega
  subst hEmpty
  exact ⟨(List.append_nil s).symm, rfl⟩

/- Whether a byte position falls between characters. -/
def HasCut
    (t : Text)
    (position : Nat) : Prop :=
  ∃ before after,
    t = before ++ after ∧ size before = position

theorem splitAt?_eq_some_iff
    {n : Nat}
    {t before after : Text} :
    splitAt? n t = some (before, after) ↔
      t = before ++ after ∧ size before = n := by
  constructor
  · intro hSplit
    induction t generalizing n before with
    | nil =>
        cases n with
        | zero =>
            cases hSplit
            exact ⟨rfl, rfl⟩
        | succ n => simp [splitAt?] at hSplit
    | cons c cs ih =>
        cases n with
        | zero =>
            cases hSplit
            exact ⟨rfl, rfl⟩
        | succ n =>
            unfold splitAt? at hSplit
            split at hSplit
            · cases hSplit
            · next hFits =>
                split at hSplit
                · next start rest hRest =>
                    cases hSplit
                    rcases ih hRest with ⟨hText, hSize⟩
                    refine ⟨by rw [hText]; rfl, ?_⟩
                    rw [size, hSize]
                    omega
                · cases hSplit
  · rintro ⟨rfl, rfl⟩
    exact splitAt?_append before after

theorem hasCut_iff
    {t : Text}
    {position : Nat} :
    t.HasCut position ↔
      (splitAt? position t).isSome = true := by
  rw [Option.isSome_iff_exists]
  constructor
  · rintro ⟨before, after, hText, hSize⟩
    exact ⟨(before, after),
      splitAt?_eq_some_iff.mpr ⟨hText, hSize⟩⟩
  · rintro ⟨⟨before, after⟩, hSplit⟩
    exact ⟨before, after, splitAt?_eq_some_iff.mp hSplit⟩

instance
    (t : Text)
    (position : Nat) :
    Decidable (t.HasCut position) :=
  decidable_of_iff _ hasCut_iff.symm

/- A text is cut after its first part, and at both ends. -/
theorem hasCut_append
    (before after : Text) :
    (before ++ after).HasCut (size before) :=
  ⟨before, after, rfl, rfl⟩

theorem hasCut_zero
    (t : Text) :
    t.HasCut 0 :=
  hasCut_append [] t

theorem hasCut_size
    (t : Text) :
    t.HasCut t.size :=
  ⟨t, [], (List.append_nil t).symm, rfl⟩

theorem HasCut.le_size
    {t : Text}
    {position : Nat}
    (hCut : t.HasCut position) :
    position ≤ t.size := by
  rcases hCut with ⟨before, after, rfl, rfl⟩
  rw [size_append]
  omega

/- A text between two positions is a part of the text. -/
theorem between?_eq_some_iff
    {t part : Text}
    {lo hi : Nat} :
    t.between? lo hi = some part ↔
      ∃ before after,
        t = before ++ part ++ after ∧
          size before = lo ∧ size (before ++ part) = hi := by
  constructor
  · intro hBetween
    unfold between? slice? at hBetween
    split at hBetween
    · next hLe =>
        split at hBetween
        · cases hBetween
        · next before rest hSplit =>
            split at hBetween
            · cases hBetween
            · next after hRest =>
                cases hBetween
                rw [splitAt?_eq_some_iff] at hSplit hRest
                refine ⟨before, after, ?_, hSplit.2, ?_⟩
                · rw [hSplit.1, hRest.1, List.append_assoc]
                · rw [size_append, hSplit.2, hRest.2]
                  omega
    · cases hBetween
  · rintro ⟨before, after, rfl, rfl, rfl⟩
    rw [between?, size_append, if_pos (by omega)]
    exact slice?_append before part after

/- There is one if both positions are, and in order. -/
theorem exists_between?_iff
    {t : Text}
    {lo hi : Nat} :
    (∃ part, t.between? lo hi = some part) ↔
      lo ≤ hi ∧ t.HasCut lo ∧ t.HasCut hi := by
  constructor
  · rintro ⟨part, hPart⟩
    rcases between?_eq_some_iff.mp hPart with
      ⟨before, after, rfl, rfl, rfl⟩
    refine ⟨?_, ?_, hasCut_append _ after⟩
    · rw [size_append]
      omega
    · rw [List.append_assoc]
      exact hasCut_append before _
  · rintro ⟨hLe, ⟨before, rest, hText, rfl⟩,
      ⟨before', after, hText', rfl⟩⟩
    rcases exists_append_of_size_le (hText.symm.trans hText')
        hLe with
      ⟨part, rfl, rfl⟩
    exact ⟨part,
      between?_eq_some_iff.mpr
        ⟨before, after, hText', rfl, rfl⟩⟩

/- The longest start of a text within a number of bytes. -/
def takeBytes : Nat → Text → Text
  | _, [] => []
  | n, c :: cs =>
      if n < c.utf8Size then
        []
      else
        c :: takeBytes (n - c.utf8Size) cs

/- What `takeBytes` leaves behind. -/
def dropBytes : Nat → Text → Text
  | _, [] => []
  | n, c :: cs =>
      if n < c.utf8Size then
        c :: cs
      else
        dropBytes (n - c.utf8Size) cs

/- Taking and dropping lose nothing. -/
theorem takeBytes_append_dropBytes
    (n : Nat)
    (t : Text) :
    takeBytes n t ++ dropBytes n t = t := by
  induction t generalizing n with
  | nil => simp [takeBytes, dropBytes]
  | cons c cs ih =>
      by_cases h : n < c.utf8Size
      · simp [takeBytes, dropBytes, h]
      · simp [takeBytes, dropBytes, h, ih]

/- The bytes of the first part are that part. -/
theorem takeBytes_append
    (s t : Text) :
    takeBytes (size s) (s ++ t) = s := by
  induction s with
  | nil =>
      cases t with
      | nil => rfl
      | cons c cs =>
          simp [takeBytes, size, Char.utf8Size_pos c]
  | cons c cs ih =>
      simp [takeBytes, size, ih]

/- After the bytes of the first part is the second. -/
theorem dropBytes_append
    (s t : Text) :
    dropBytes (size s) (s ++ t) = t := by
  have hSplit :=
    takeBytes_append_dropBytes (size s) (s ++ t)
  rw [takeBytes_append] at hSplit
  exact List.append_cancel_left hSplit

/- The last character has the rest of the text before it. -/
theorem endsWith_iff
    {last : Char}
    {t : Text} :
    endsWith last t = true ↔ ∃ before, t = before ++ [last] := by
  rw [endsWith, beq_iff_eq, List.getLast?_eq_some_iff]

end Text

end ComponentLoader
