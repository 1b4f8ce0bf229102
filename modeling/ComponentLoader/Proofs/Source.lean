import Mathlib.Tactic
import ComponentLoader.Source
import ComponentLoader.Proofs.Text.Cuts

/-
  What stands between two positions of a source, where the
  positions are those of a part of its text.

  Main declarations:
    * `Source.spanOf`
    * `Source.range_spanOf`
    * `Source.slice_spanOf`
-/

------------------------------------------------------------
-- Parts Of A Source
------------------------------------------------------------

namespace ComponentLoader

namespace Source

/- The span of a part, by the text before it. -/
def spanOf
    (s : Source)
    (before part : Text) : Span :=
  { lo := s.start + Text.size before
    hi := s.start + Text.size before + Text.size part }

/- The byte offset after the first part of a source. -/
theorem offset_append
    {s : Source}
    {before after : Text}
    (hText : s.text = before ++ after) :
    s.offset (s.start + Text.size before) =
      Text.size before := by
  unfold offset
  rw [hText, Text.size_append]
  omega

theorem range_spanOf
    {s : Source}
    {before part after : Text}
    (hText : s.text = before ++ part ++ after) :
    s.range (s.spanOf before part) =
      (Text.size before,
        Text.size before + Text.size part) := by
  have hLo : s.offset (s.spanOf before part).lo =
      Text.size before := by
    apply offset_append
    rw [hText, List.append_assoc]
  have hHi : s.offset (s.spanOf before part).hi =
      Text.size before + Text.size part := by
    have hOffset := offset_append hText
    rw [Text.size_append, ← Nat.add_assoc] at hOffset
    exact hOffset
  unfold range
  simp only [hLo, hHi]
  rw [Nat.max_eq_left (Nat.le_add_right _ _)]

/- The text of the span of a part is that part. -/
theorem slice_spanOf
    {s : Source}
    {before part after : Text}
    (hText : s.text = before ++ part ++ after) :
    s.slice (s.spanOf before part) = part := by
  unfold slice
  split
  · next hNowhere =>
      have hSize : Text.size part = 0 := by
        have hHi := congrArg Span.hi hNowhere
        simp only [spanOf, Span.nowhere] at hHi
        omega
      exact (Text.eq_nil_of_size hSize).symm
  · rw [range_spanOf hText]
    simp only [hText]
    rw [Text.slice?_append]
    rfl

end Source

end ComponentLoader
