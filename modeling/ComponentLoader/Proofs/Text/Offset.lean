import Mathlib.Tactic
import ComponentLoader.Proofs.Text.Keyword

/-
  The offset of the first occurrence of a word in a text.

  Main declarations:
    * `Text.offset?`
    * `Text.offset?_cases`
-/

------------------------------------------------------------
-- The First Occurrence
------------------------------------------------------------

namespace ComponentLoader

namespace Text

/- Where a word first occurs, if it does. -/
def offset?
    (word : Text) : Text → Option Nat
  | [] => if word.isEmpty then some 0 else none
  | c :: cs =>
      if (after? word (c :: cs)).isSome then
        some 0
      else
        (offset? word cs).map (c.utf8Size + ·)

theorem isSome_after?_iff
    {word t : Text} :
    (after? word t).isSome = true ↔ word <+: t := by
  rw [Option.isSome_iff_exists]
  constructor
  · rintro ⟨rest, hAfter⟩
    exact ⟨rest, (eq_append_of_after? hAfter).symm⟩
  · rintro ⟨rest, rfl⟩
    exact ⟨rest, after?_append word rest⟩

theorem append_dropLast_isPrefix
    (before word after : Text) :
    before ++ word.dropLast <+: before ++ word ++ after := by
  rw [List.append_assoc]
  exact (List.prefix_append_right_inj before).mpr
    ((List.dropLast_prefix word).trans
      (List.prefix_append word after))

/-
  A word does not occur, or it is cut out of the text where
  it first does: it does not occur again in what is before
  its last character.
-/
theorem offset?_cases
    {word : Text}
    (hSome : word ≠ [])
    (t : Text) :
    (offset? word t = none ∧ ¬ word <:+: t) ∨
      ∃ before after,
        t = before ++ word ++ after ∧
          offset? word t = some before.size ∧
          ¬ word <:+: before ++ word.dropLast := by
  induction t with
  | nil =>
      left
      simp [offset?, hSome]
  | cons c cs ih =>
      by_cases hHere : word <+: c :: cs
      · right
        rcases hHere with ⟨after, hText⟩
        have hAfter := isSome_after?_iff.mpr ⟨after, hText⟩
        refine ⟨[], after, hText.symm, ?_, ?_⟩
        · rw [offset?, if_pos hAfter]
          rfl
        · intro hInfix
          have hLength := hInfix.length_le
          have hPositive := List.length_pos_of_ne_nil hSome
          rw [List.nil_append, List.length_dropLast]
            at hLength
          omega
      · have hAfter : ¬ (after? word (c :: cs)).isSome = true :=
          fun h => hHere (isSome_after?_iff.mp h)
        rcases ih with
          ⟨hNone, hNot⟩ |
          ⟨before, after, rfl, hOffset, hFirst⟩
        · left
          refine ⟨?_, ?_⟩
          · rw [offset?, if_neg hAfter, hNone]
            rfl
          · rw [List.infix_cons_iff]
            exact fun h => h.elim hHere hNot
        · right
          refine ⟨c :: before, after, rfl, ?_, ?_⟩
          · rw [offset?, if_neg hAfter, hOffset]
            rfl
          · have hLonger :=
              append_dropLast_isPrefix before word after
            rw [List.cons_append, List.infix_cons_iff]
            rintro (hPrefix | hInfix)
            · exact hHere (hPrefix.trans
                (List.cons_prefix_cons.mpr ⟨rfl, hLonger⟩))
            · exact hFirst hInfix

end Text

end ComponentLoader
