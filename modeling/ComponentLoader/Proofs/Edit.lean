import Mathlib.Tactic
import ComponentLoader.Edit
import ComponentLoader.Proofs.Text.Cuts

/-
  Edits that are apart from each other.  They are applied
  in the order in which they stand, whatever order they
  came in, and none of them is skipped.

  Main declarations:
    * `Edit.perm_sort`
    * `Edit.pairwise_sort`
    * `Edit.sort_eq_of_perm`
    * `Edit.AllApplied`
    * `Edit.applyFrom?_cut`
-/

------------------------------------------------------------
-- Sorted Edits
------------------------------------------------------------

namespace ComponentLoader

namespace Edit

theorem perm_insertSorted
    (e : Edit)
    (edits : List Edit) :
    (insertSorted e edits).Perm (e :: edits) := by
  induction edits with
  | nil => exact List.Perm.refl _
  | cons first rest ih =>
      unfold insertSorted
      split
      · exact List.Perm.refl _
      · exact (ih.cons first).trans
          (List.Perm.swap e first rest)

/- Sorting loses no edit. -/
theorem perm_sort
    (edits : List Edit) :
    (sort edits).Perm edits := by
  induction edits with
  | nil => exact List.Perm.refl _
  | cons e rest ih =>
      exact (perm_insertSorted e (sort rest)).trans
        (ih.cons e)

theorem pairwise_insertSorted
    {e : Edit}
    {edits : List Edit}
    (hSorted :
      edits.Pairwise fun a b => a.start ≤ b.start) :
    (insertSorted e edits).Pairwise
      fun a b => a.start ≤ b.start := by
  induction edits with
  | nil => exact List.pairwise_singleton _ _
  | cons first rest ih =>
      rcases List.pairwise_cons.mp hSorted with
        ⟨hFirst, hRest⟩
      unfold insertSorted
      split
      · next hLe =>
          refine List.pairwise_cons.mpr ⟨?_, hSorted⟩
          intro b hMem
          rcases List.mem_cons.mp hMem with rfl | hMem
          · exact hLe
          · exact Nat.le_trans hLe (hFirst b hMem)
      · next hLt =>
          refine List.pairwise_cons.mpr ⟨?_, ih hRest⟩
          intro b hMem
          rw [(perm_insertSorted e rest).mem_iff] at hMem
          rcases List.mem_cons.mp hMem with rfl | hMem
          · omega
          · exact hFirst b hMem

/- Sorted edits stand in the order of their starts. -/
theorem pairwise_sort
    (edits : List Edit) :
    (sort edits).Pairwise
      fun a b => a.start ≤ b.start := by
  induction edits with
  | nil => exact List.Pairwise.nil
  | cons e rest ih => exact pairwise_insertSorted ih

/-
  Edits in the order of their starts are what others are
  sorted to, if no two of them start together.
-/
theorem sort_eq_of_perm
    {edits ordered : List Edit}
    (hOrdered :
      ordered.Pairwise fun a b => a.start < b.start)
    (hPerm : ordered.Perm edits) :
    sort edits = ordered := by
  have hDistinct : (ordered.map Edit.start).Nodup := by
    rw [List.Nodup, List.pairwise_map]
    exact hOrdered.imp fun hLt => Nat.ne_of_lt hLt
  have hSame := (perm_sort edits).trans hPerm.symm
  refine List.Perm.eq_of_pairwise ?_ (pairwise_sort edits)
    (hOrdered.imp fun hLt => Nat.le_of_lt hLt) hSame
  intro a b hA hB hLe hGe
  exact List.inj_on_of_nodup_map hDistinct
    (hSame.mem_iff.mp hA) hB (Nat.le_antisymm hLe hGe)

------------------------------------------------------------
-- Applied Edits
------------------------------------------------------------

/-
  Whether no edit is skipped, if what has been written so
  far ends at `last` in a text of a size.
-/
def AllApplied
    (size : Nat) : Nat → List Edit → Prop
  | _, [] => True
  | last, e :: edits =>
      isApplied size last e = true ∧
        AllApplied size e.stop edits

/-
  An edit that is applied keeps the text in front of it,
  and leaves a text if those after it do.
-/
theorem applyFrom?_eq_some_iff
    {t : Text}
    {last : Nat}
    {e : Edit}
    (hApplied : isApplied t.size last e = true)
    {edits : List Edit}
    {out : Text} :
    applyFrom? t last (e :: edits) = some out ↔
      ∃ gap rest,
        t.between? last e.start = some gap ∧
          applyFrom? t e.stop edits = some rest ∧
          gap ++ e.text ++ rest = out := by
  rw [applyFrom?, if_pos hApplied]
  cases t.between? last e.start with
  | none => simp
  | some gap =>
      cases applyFrom? t e.stop edits with
      | none => simp
      | some rest => simp

/-
  In what follows `done` has been written, `skipped` is to
  be kept, and `cut` is what an edit replaces.
-/
section Cuts

variable {t done skipped cut rest : Text}

/- An edit of text that is still to be written. -/
theorem isApplied_cut
    (hText : t = done ++ skipped ++ cut ++ rest)
    (text : Text) :
    isApplied t.size (Text.size done)
        { start := Text.size (done ++ skipped)
          stop := Text.size (done ++ skipped ++ cut)
          text := text } = true := by
  simp only [isApplied, Bool.and_eq_true, decide_eq_true_eq,
    hText, Text.size_append]
  omega

/- Skipping text and replacing what comes after it. -/
theorem applyFrom?_cut
    (hText : t = done ++ skipped ++ cut ++ rest)
    (text : Text)
    (edits : List Edit) :
    applyFrom? t (Text.size done)
        ({ start := Text.size (done ++ skipped)
           stop := Text.size (done ++ skipped ++ cut)
           text := text } :: edits) =
      (applyFrom? t (Text.size (done ++ skipped ++ cut))
        edits).map (skipped ++ text ++ ·) := by
  have hGap :
      t.between? (Text.size done)
          (Text.size (done ++ skipped)) = some skipped := by
    rw [Text.between?_eq_some_iff]
    refine ⟨done, cut ++ rest, ?_, rfl, rfl⟩
    rw [hText, List.append_assoc (done ++ skipped)]
  apply Option.ext
  intro out
  rw [applyFrom?_eq_some_iff (isApplied_cut hText text),
    Option.map_eq_some_iff, hGap]
  constructor
  · rintro ⟨_, after, ⟨⟩, hAfter, hOut⟩
    exact ⟨after, hAfter, hOut⟩
  · rintro ⟨after, hAfter, hOut⟩
    exact ⟨skipped, after, rfl, hAfter, hOut⟩

theorem allApplied_cut
    {text : Text}
    {edits : List Edit}
    (hText : t = done ++ skipped ++ cut ++ rest)
    (hRest :
      AllApplied t.size
        (Text.size (done ++ skipped ++ cut)) edits) :
    AllApplied t.size (Text.size done)
      ({ start := Text.size (done ++ skipped)
         stop := Text.size (done ++ skipped ++ cut)
         text := text } :: edits) :=
  ⟨isApplied_cut hText text, hRest⟩

/- Skipping text and inserting some after it. -/
theorem applyFrom?_insert
    (hText : t = done ++ skipped ++ rest)
    (text : Text)
    (edits : List Edit) :
    applyFrom? t (Text.size done)
        ({ start := Text.size (done ++ skipped)
           stop := Text.size (done ++ skipped)
           text := text } :: edits) =
      (applyFrom? t (Text.size (done ++ skipped))
        edits).map (skipped ++ text ++ ·) := by
  have hNone : t = done ++ skipped ++ [] ++ rest := by
    simpa using hText
  simpa using applyFrom?_cut hNone text edits

theorem allApplied_insert
    {text : Text}
    {edits : List Edit}
    (hText : t = done ++ skipped ++ rest)
    (hRest :
      AllApplied t.size (Text.size (done ++ skipped))
        edits) :
    AllApplied t.size (Text.size done)
      ({ start := Text.size (done ++ skipped)
         stop := Text.size (done ++ skipped)
         text := text } :: edits) := by
  refine ⟨?_, hRest⟩
  have hNone : t = done ++ skipped ++ [] ++ rest := by
    simpa using hText
  simpa using isApplied_cut hNone text

/- What is left when all edits have been applied. -/
theorem applyFrom?_nil
    (hText : t = done ++ rest) :
    applyFrom? t (Text.size done) [] = some rest := by
  rw [applyFrom?, Text.between?_eq_some_iff]
  refine ⟨done, [], ?_, rfl, by rw [hText]⟩
  rw [hText, List.append_nil]

end Cuts

end Edit

end ComponentLoader
