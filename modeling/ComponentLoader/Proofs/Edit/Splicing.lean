import Mathlib.Tactic
import ComponentLoader.Proofs.Edit

/-
  What becomes of a text under any edits at all: of those
  that get in each other's way the first one counts, and
  of the text nothing but their ranges is replaced.

  The order of the edits, the choice among them and the
  text that results are described each on its own; the
  splicing is then shown to agree with all three.  There is
  a text unless one of the edits chosen is not between
  characters.

  Main declarations:
    * `Edit.Ordered`
    * `Edit.chosen`
    * `Edit.Replaced`
    * `Edit.exists_applyAll?_iff`
    * `Edit.InTurn`
    * `Edit.splices_applyAll`
-/

------------------------------------------------------------
-- Edits Of A Text
------------------------------------------------------------

namespace ComponentLoader

namespace Edit

/-
  Whether an edit is one of a text: it does not end before
  it starts, and its positions in the text, if they are
  not past its end, fall between characters.
-/
@[mk_iff] structure FitsIn
    (e : Edit)
    (t : Text) : Prop where
  start_le : e.start ≤ e.stop
  start : e.start ≤ t.size → t.HasCut e.start
  stop : e.stop ≤ t.size → t.HasCut e.stop

instance
    (e : Edit)
    (t : Text) :
    Decidable (e.FitsIn t) :=
  decidable_of_iff _ (fitsIn_iff e t).symm

------------------------------------------------------------
-- The Order Of Edits
------------------------------------------------------------

/-
  Whether a numbered edit comes before another: by where
  they start, and then by their numbers.
-/
def Precedes
    (a b : Edit × Nat) : Prop :=
  a.1.start < b.1.start ∨
    a.1.start = b.1.start ∧ a.2 < b.2

/-
  Whether edits, numbered as they came from `n` on, are
  put into order.
-/
def OrderedFrom
    (n : Nat)
    (edits ordered : List Edit) : Prop :=
  ∃ numbered : List (Edit × Nat),
    numbered.Perm (edits.zipIdx n) ∧
      numbered.Pairwise Precedes ∧
      numbered.map Prod.fst = ordered

/- Whether edits are put into order. -/
def Ordered
    (edits ordered : List Edit) : Prop :=
  OrderedFrom 0 edits ordered

/- An edit that came before all others is put in place. -/
theorem exists_insertSorted
    {e : Edit}
    {n : Nat}
    {numbered : List (Edit × Nat)}
    (hLater : ∀ p ∈ numbered, n < p.2)
    (hOrdered : numbered.Pairwise Precedes) :
    ∃ longer : List (Edit × Nat),
      longer.Perm ((e, n) :: numbered) ∧
        longer.Pairwise Precedes ∧
        longer.map Prod.fst =
          insertSorted e (numbered.map Prod.fst) := by
  induction numbered with
  | nil =>
      exact ⟨[(e, n)], List.Perm.refl _,
        List.pairwise_singleton _ _, rfl⟩
  | cons p rest ih =>
      rcases List.pairwise_cons.mp hOrdered with
        ⟨hFirst, hRest⟩
      rw [List.map_cons, insertSorted]
      split
      · next hLe =>
          refine ⟨(e, n) :: p :: rest, List.Perm.refl _, ?_,
            rfl⟩
          refine List.pairwise_cons.mpr ⟨?_, hOrdered⟩
          -- all of them start later, or there with `p`
          intro q hMem
          have hNumber := hLater q hMem
          have hStart : p.1.start ≤ q.1.start := by
            rcases List.mem_cons.mp hMem with rfl | hMem
            · exact Nat.le_refl _
            · rcases hFirst q hMem with hLt | ⟨hEq, _⟩
              · exact Nat.le_of_lt hLt
              · exact Nat.le_of_eq hEq
          unfold Precedes
          simp only
          omega
      · next hLt =>
          rcases ih
              (fun q hMem =>
                hLater q (List.mem_cons_of_mem p hMem))
              hRest with
            ⟨longer, hPerm, hLonger, hMap⟩
          refine ⟨p :: longer,
            (hPerm.cons p).trans (List.Perm.swap _ _ _),
            ?_, by rw [List.map_cons, hMap]⟩
          refine List.pairwise_cons.mpr ⟨?_, hLonger⟩
          intro q hMem
          rw [hPerm.mem_iff] at hMem
          rcases List.mem_cons.mp hMem with rfl | hMem
          · exact Or.inl (Nat.lt_of_not_le hLt)
          · exact hFirst q hMem

/- Sorting puts edits into order, by induction on them. -/
theorem orderedFrom_sort
    (edits : List Edit)
    (n : Nat) :
    OrderedFrom n edits (sort edits) := by
  induction edits generalizing n with
  | nil => exact ⟨[], List.Perm.refl _, .nil, rfl⟩
  | cons e rest ih =>
      rcases ih (n + 1) with
        ⟨numbered, hPerm, hOrdered, hMap⟩
      have hLater : ∀ p ∈ numbered, n < p.2 := by
        intro p hMem
        rw [hPerm.mem_iff] at hMem
        exact List.le_snd_of_mem_zipIdx hMem
      rcases exists_insertSorted (e := e) hLater
          hOrdered with
        ⟨longer, hLonger, hPairwise, hSorted⟩
      refine ⟨longer, hLonger.trans ?_, hPairwise, ?_⟩
      · rw [List.zipIdx_cons]
        exact hPerm.cons (e, n)
      · rw [hSorted, hMap]
        rfl

theorem ordered_sort
    (edits : List Edit) :
    Ordered edits (sort edits) :=
  orderedFrom_sort edits 0

------------------------------------------------------------
-- The Choice Among Edits
------------------------------------------------------------

/-
  Whether a further edit is taken: if it ends in the text
  and does not start before the end of the last one.
-/
def choose
    (size : Nat)
    (taken : List Edit)
    (e : Edit) : List Edit :=
  if e.stop ≤ size ∧
      ∀ last ∈ taken.getLast?, last.stop ≤ e.start then
    taken ++ [e]
  else
    taken

/- The edits taken one after another, where possible. -/
def chosen
    (size : Nat)
    (ordered : List Edit) : List Edit :=
  ordered.foldl (choose size) []

/-
  The edits applied from a position on, as they are met
  when what has been written so far ends at `last`.
-/
def applied
    (size : Nat) : Nat → List Edit → List Edit
  | _, [] => []
  | last, e :: edits =>
      if isApplied size last e then
        e :: applied size e.stop edits
      else
        applied size last edits

theorem isApplied_iff
    {size last : Nat}
    {e : Edit} :
    isApplied size last e = true ↔
      last ≤ e.start ∧ e.stop ≤ size := by
  simp [isApplied]

/-
  The edits chosen beyond some others are those applied
  from the end of the last of them.
-/
theorem foldl_choose
    {size last : Nat}
    {taken : List Edit}
    (hLast :
      ∀ position,
        (∀ e ∈ taken.getLast?, e.stop ≤ position) ↔
          last ≤ position)
    (edits : List Edit) :
    edits.foldl (choose size) taken =
      taken ++ applied size last edits := by
  induction edits generalizing taken last with
  | nil => exact (List.append_nil taken).symm
  | cons e rest ih =>
      rw [List.foldl_cons, choose, applied]
      by_cases hApplied : isApplied size last e = true
      · rcases isApplied_iff.mp hApplied with
          ⟨hStart, hStop⟩
        have hNext :
            ∀ position,
              (∀ e' ∈ (taken ++ [e]).getLast?,
                  e'.stop ≤ position) ↔
                e.stop ≤ position := by
          simp
        rw [if_pos ⟨hStop, (hLast e.start).mpr hStart⟩,
          if_pos hApplied, ih hNext, List.append_assoc,
          List.singleton_append]
      · rw [if_neg hApplied, if_neg, ih hLast]
        rintro ⟨hStop, hAfter⟩
        exact hApplied (isApplied_iff.mpr
          ⟨(hLast e.start).mp hAfter, hStop⟩)

/- Choosing edits is applying them from the start on. -/
theorem chosen_eq
    (size : Nat)
    (ordered : List Edit) :
    chosen size ordered = applied size 0 ordered := by
  have hNone :
      ∀ position,
        (∀ e ∈ ([] : List Edit).getLast?,
            e.stop ≤ position) ↔
          0 ≤ position := by
    simp
  exact foldl_choose hNone ordered

------------------------------------------------------------
-- The Text That Results
------------------------------------------------------------

/-
  Whether a text `out` is what is left of a text, whose
  first byte is at `last`, with the ranges of edits
  replaced and nothing else.
-/
inductive Replaced :
    Nat → Text → List Edit → Text → Prop where
  | rest
      (last : Nat)
      (rest : Text) :
      Replaced last rest [] rest
  | edit
      {last : Nat}
      {gap cut rest out : Text}
      {e : Edit}
      {edits : List Edit}
      (hStart : e.start = last + Text.size gap)
      (hStop : e.stop = e.start + Text.size cut)
      (hRest : Replaced e.stop rest edits out) :
      Replaced last (gap ++ cut ++ rest) (e :: edits)
        (gap ++ e.text ++ out)

/- What is still to be written is cut where an edit is. -/
theorem exists_cut
    {done rest : Text}
    {e : Edit}
    (hFits : e.FitsIn (done ++ rest))
    (hApplied :
      isApplied (Text.size (done ++ rest))
        (Text.size done) e = true) :
    ∃ gap cut after,
      rest = gap ++ cut ++ after ∧
        e.start = Text.size (done ++ gap) ∧
        e.stop = Text.size (done ++ gap ++ cut) := by
  rcases isApplied_iff.mp hApplied with ⟨hLast, hInside⟩
  have hLe := hFits.start_le
  rcases hFits.start (Nat.le_trans hLe hInside) with
    ⟨before, behind, hText, hStart⟩
  rcases hFits.stop hInside with
    ⟨before', after, hText', hStop⟩
  rcases Text.exists_append_of_size_le hText
      (by rw [hStart]; exact hLast) with
    ⟨gap, rfl, rfl⟩
  rcases Text.exists_append_of_size_le
      (hText.symm.trans hText')
      (by rw [hStart, hStop]; exact hLe) with
    ⟨cut, rfl, rfl⟩
  exact ⟨gap, cut, after, by rw [List.append_assoc],
    hStart.symm, hStop.symm⟩

/-
  Applying edits to what is left of a text never fails to
  slice it, and replaces the ranges of those it applies.
-/
theorem exists_spliced
    {done rest : Text}
    {edits : List Edit}
    (hFits : ∀ e ∈ edits, e.FitsIn (done ++ rest)) :
    ∃ out,
      applyFrom? (done ++ rest) (Text.size done) edits =
          some out ∧
        Replaced (Text.size done) rest
          (applied (Text.size (done ++ rest))
            (Text.size done) edits)
          out := by
  induction edits generalizing done rest with
  | nil => exact ⟨rest, applyFrom?_nil rfl, .rest _ _⟩
  | cons e edits ih =>
      rcases e with ⟨start, stop, text⟩
      have hFirst := hFits _ List.mem_cons_self
      have hOthers := fun e hMem =>
        hFits e (List.mem_cons_of_mem _ hMem)
      rw [applied]
      by_cases hApplied :
          isApplied (Text.size (done ++ rest))
            (Text.size done) ⟨start, stop, text⟩ = true
      · rcases exists_cut hFirst hApplied with
          ⟨gap, cut, after, rfl, hStart, hStop⟩
        subst hStart hStop
        have hText :
            done ++ (gap ++ cut ++ after) =
              done ++ gap ++ cut ++ after := by
          simp only [List.append_assoc]
        rw [hText] at hApplied hOthers ⊢
        rcases ih hOthers with ⟨out, hOut, hReplaced⟩
        refine ⟨gap ++ text ++ out, ?_, ?_⟩
        · rw [applyFrom?_cut rfl text edits, hOut,
            Option.map_some]
        · rw [if_pos hApplied]
          exact .edit (Text.size_append done gap)
            (Text.size_append (done ++ gap) cut) hReplaced
      · rw [applyFrom?, if_neg hApplied, if_neg hApplied]
        exact ih hOthers

------------------------------------------------------------
-- Edits That Cut A Character
------------------------------------------------------------

/- Whether an edit starts and ends between characters. -/
def OnCuts
    (e : Edit)
    (t : Text) : Prop :=
  t.HasCut e.start ∧ t.HasCut e.stop

instance
    (e : Edit)
    (t : Text) :
    Decidable (e.OnCuts t) :=
  inferInstanceAs (Decidable (_ ∧ _))

/-
  Edits leave a text if those that are applied are between
  its characters, by induction on them: each slices the
  text from the end of the last one up to its own start.
-/
theorem exists_applyFrom?_iff
    {t : Text}
    {last : Nat}
    {edits : List Edit} :
    (∃ out, applyFrom? t last edits = some out) ↔
      t.HasCut last ∧
        ∀ e ∈ applied t.size last edits, e.OnCuts t := by
  induction edits generalizing last with
  | nil =>
      rw [applyFrom?, applied, Text.exists_between?_iff]
      constructor
      · rintro ⟨_, hLast, _⟩
        exact ⟨hLast, by simp⟩
      · rintro ⟨hLast, _⟩
        exact ⟨hLast.le_size, hLast, t.hasCut_size⟩
  | cons e edits ih =>
      rw [applied]
      by_cases hApplied : isApplied t.size last e = true
      · have hLast := (isApplied_iff.mp hApplied).1
        have hGap :
            (∃ gap, t.between? last e.start = some gap) ↔
              t.HasCut last ∧ t.HasCut e.start := by
          rw [Text.exists_between?_iff]
          exact and_iff_right hLast
        have hBoth :
            (∃ out,
                applyFrom? t last (e :: edits) = some out) ↔
              (∃ gap, t.between? last e.start = some gap) ∧
                ∃ rest,
                  applyFrom? t e.stop edits = some rest := by
          simp only [applyFrom?_eq_some_iff hApplied]
          constructor
          · rintro ⟨_, gap, rest, hBefore, hAfter, _⟩
            exact ⟨⟨gap, hBefore⟩, rest, hAfter⟩
          · rintro ⟨⟨gap, hBefore⟩, rest, hAfter⟩
            exact ⟨_, gap, rest, hBefore, hAfter, rfl⟩
        rw [hBoth, hGap, ih, if_pos hApplied,
          List.forall_mem_cons, OnCuts]
        tauto
      · rw [applyFrom?, if_neg hApplied, if_neg hApplied]
        exact ih

/- There is a text unless an edit chosen cuts a character. -/
theorem exists_applyAll?_iff
    {t : Text}
    {edits : List Edit} :
    (∃ out, applyAll? t edits = some out) ↔
      ∀ e ∈ chosen t.size (sort edits), e.OnCuts t := by
  rw [applyAll?, exists_applyFrom?_iff, chosen_eq]
  exact and_iff_right t.hasCut_zero

------------------------------------------------------------
-- Edits That Leave Each Other Alone
------------------------------------------------------------

/-
  Whether an edit leaves one alone that came before it: one
  of the two ends before or where the other starts, and the
  later one is not inserted where the earlier one starts to
  replace something.
-/
@[mk_iff] structure InTurn
    (a b : Edit) : Prop where
  apart : a.stop ≤ b.start ∨ b.stop ≤ a.start
  free :
    ¬ (a.start < a.stop ∧ b.start = a.start ∧
      b.stop = b.start)

instance
    (a b : Edit) :
    Decidable (a.InTurn b) :=
  decidable_of_iff _ (inTurn_iff a b).symm

/- Whether edits end in a text and are pairwise in turn. -/
@[mk_iff] structure Compatible
    (size : Nat)
    (edits : List Edit) : Prop where
  inside : ∀ e ∈ edits, e.stop ≤ size
  inTurn : edits.Pairwise InTurn

instance
    (size : Nat)
    (edits : List Edit) :
    Decidable (Compatible size edits) :=
  decidable_of_iff _ (compatible_iff size edits).symm

/- What holds of edits in turn holds of those numbered so. -/
theorem rel_of_mem_zipIdx
    {R : Edit → Edit → Prop}
    {edits : List Edit}
    (hEdits : edits.Pairwise R)
    {p q : Edit × Nat}
    (hP : p ∈ edits.zipIdx)
    (hQ : q ∈ edits.zipIdx)
    (hLt : p.2 < q.2) :
    R p.1 q.1 := by
  rw [List.mem_zipIdx_iff_getElem?,
    List.getElem?_eq_some_iff] at hP hQ
  rcases hP with ⟨hFirst, hP⟩
  rcases hQ with ⟨hSecond, hQ⟩
  rw [← hP, ← hQ]
  exact List.pairwise_iff_getElem.mp hEdits _ _ hFirst
    hSecond hLt

/-
  Put into order, edits that leave each other alone come
  one after the end of the other.
-/
theorem pairwise_stop_le
    {edits : List Edit}
    (hLe : ∀ e ∈ edits, e.start ≤ e.stop)
    (hInTurn : edits.Pairwise InTurn) :
    (sort edits).Pairwise fun a b => a.stop ≤ b.start := by
  rcases ordered_sort edits with
    ⟨numbered, hPerm, hOrdered, hMap⟩
  have hEdit : ∀ p ∈ numbered, p.1 ∈ edits := by
    intro p hMem
    rw [← (perm_sort edits).mem_iff, ← hMap]
    exact List.mem_map_of_mem hMem
  rw [← hMap, List.pairwise_map]
  refine hOrdered.imp_of_mem ?_
  intro p q hP hQ hPrecedes
  have hFirst := hLe p.1 (hEdit p hP)
  have hSecond := hLe q.1 (hEdit q hQ)
  rw [hPerm.mem_iff] at hP hQ
  rcases Nat.lt_trichotomy p.2 q.2 with hLt | hEq | hGt
  · have hTurn := rel_of_mem_zipIdx hInTurn hP hQ hLt
    have hApart := hTurn.apart
    have hFree := hTurn.free
    unfold Precedes at hPrecedes
    omega
  · -- one number is that of one edit
    rw [List.mem_zipIdx_iff_getElem?] at hP hQ
    rw [hEq, hQ, Option.some.injEq] at hP
    unfold Precedes at hPrecedes
    rw [hP] at hPrecedes
    omega
  · have hApart := (rel_of_mem_zipIdx hInTurn hQ hP hGt).apart
    unfold Precedes at hPrecedes
    omega

/- Of edits one after another none is skipped. -/
theorem applied_eq_self
    {size last : Nat}
    {edits : List Edit}
    (hEdits : ∀ e ∈ edits, last ≤ e.start ∧ e.stop ≤ size)
    (hApart :
      edits.Pairwise fun a b => a.stop ≤ b.start) :
    applied size last edits = edits := by
  induction edits generalizing last with
  | nil => rfl
  | cons e rest ih =>
      rcases List.pairwise_cons.mp hApart with
        ⟨hFirst, hRest⟩
      have hApplied :=
        isApplied_iff.mpr (hEdits e List.mem_cons_self)
      rw [applied, if_pos hApplied, ih ?_ hRest]
      intro e' hMem
      exact ⟨hFirst e' hMem,
        (hEdits e' (List.mem_cons_of_mem e hMem)).2⟩

/- Edits that start apart have one order alone. -/
theorem sort_eq_sort
    {edits other : List Edit}
    (hDistinct : (edits.map Edit.start).Nodup)
    (hPerm : other.Perm edits) :
    sort other = sort edits := by
  have hStarts : ((sort edits).map Edit.start).Nodup :=
    ((perm_sort edits).map Edit.start).nodup_iff.mpr
      hDistinct
  rw [List.Nodup, List.pairwise_map] at hStarts
  refine sort_eq_of_perm ?_
    ((perm_sort edits).trans hPerm.symm)
  refine ((pairwise_sort edits).and hStarts).imp ?_
  rintro a b ⟨hLe, hNe⟩
  exact Nat.lt_of_le_of_ne hLe hNe

------------------------------------------------------------
-- Splicing
------------------------------------------------------------

/-
  A text with edits spliced in: they are put into order,
  every slice of the text is one, and the ranges of those
  chosen in this order are replaced.
-/
structure Splices
    (t : Text)
    (edits : List Edit)
    (out : Text) : Prop where
  ordered : Ordered edits (sort edits)
  sliced : applyAll? t edits = some out
  replaced :
    Replaced 0 t (chosen t.size (sort edits)) out

/-
  Any edits of a text are spliced into it.  All of them are
  if they leave each other alone; and which of them came
  first does not matter if no two start together.
-/
theorem splices_applyAll
    {t : Text}
    {edits : List Edit}
    (hFits : ∀ e ∈ edits, e.FitsIn t) :
    ∃ out,
      Splices t edits out ∧
        (Compatible t.size edits →
          chosen t.size (sort edits) = sort edits) ∧
        ((edits.map Edit.start).Nodup →
          ∀ other : List Edit, other.Perm edits →
            applyAll? t other = some out) := by
  have hMem : ∀ {e}, e ∈ sort edits ↔ e ∈ edits :=
    (perm_sort edits).mem_iff
  have hSorted : ∀ e ∈ sort edits, e.FitsIn ([] ++ t) :=
    fun e hE => hFits e (hMem.mp hE)
  rcases exists_spliced hSorted with
    ⟨out, hSliced, hReplaced⟩
  refine ⟨out, ?_, ?_, ?_⟩
  · exact
      { ordered := ordered_sort edits
        sliced := hSliced
        replaced := by
          rw [chosen_eq]
          exact hReplaced }
  · intro hCompatible
    rw [chosen_eq]
    apply applied_eq_self
    · intro e hE
      exact ⟨Nat.zero_le _,
        hCompatible.inside e (hMem.mp hE)⟩
    · exact pairwise_stop_le
        (fun e hE => (hFits e hE).start_le)
        hCompatible.inTurn
  · intro hDistinct other hPerm
    rw [applyAll?, sort_eq_sort hDistinct hPerm]
    exact hSliced

namespace Sample

/- Characters of one, two and three bytes. -/
def text : Text :=
  "aé→b".toList

/- Edits that touch each other, in no order. -/
def edits : List Edit :=
  [ { start := 3, stop := 6, text := "-".toList },
    { start := 7, stop := 7, text := "!".toList },
    { start := 1, stop := 3, text := "ee".toList },
    { start := 0, stop := 0, text := "<".toList } ]

end Sample

theorem splices_applyAll_sample :
    (∀ e ∈ Sample.edits, e.FitsIn Sample.text) ∧
      Splices Sample.text Sample.edits
        "<aee-b!".toList ∧
      chosen Sample.text.size (sort Sample.edits) =
        sort Sample.edits ∧
      applyAll? Sample.text Sample.edits.reverse =
        some "<aee-b!".toList := by
  have hFits :
      ∀ e ∈ Sample.edits, e.FitsIn Sample.text := by
    decide
  have hCompatible :
      Compatible Sample.text.size Sample.edits := by
    decide
  have hDistinct :
      (Sample.edits.map Edit.start).Nodup := by
    decide
  have hOut : applyAll? Sample.text Sample.edits =
      some "<aee-b!".toList := by
    decide
  rcases splices_applyAll hFits with
    ⟨out, hSplices, hChosen, hOrder⟩
  cases hOut.symm.trans hSplices.sliced
  exact ⟨hFits, hSplices, hChosen hCompatible,
    hOrder hDistinct _ (List.reverse_perm _)⟩

/- Of edits that overlap the first one is applied. -/
example :
    applyAll? "abcdef".toList
        [ { start := 2, stop := 4, text := "2".toList },
          { start := 0, stop := 3, text := "1".toList },
          { start := 9, stop := 9, text := "3".toList } ] =
      some "1def".toList := by
  decide

/- An edit inside a character leaves no text. -/
example :
    applyAll? "é".toList
        [{ start := 1, stop := 1, text := "-".toList }] =
      none := by
  decide

end Edit

end ComponentLoader
