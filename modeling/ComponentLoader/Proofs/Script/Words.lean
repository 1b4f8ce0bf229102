import Mathlib.Tactic
import ComponentLoader.Proofs.Script.Skipped
import ComponentLoader.Script.Cursor

/-
  A cursor at a plain word: what has been skipped before
  the word and what is left after it, read off the text
  and the other way around.

  Main declarations:
    * `Script.scanToken_eq_word`
    * `Script.Cursor.atPlace_word`
    * `Script.Cursor.exists_of_token`
-/

------------------------------------------------------------
-- Words
------------------------------------------------------------

namespace ComponentLoader

namespace Script

/- A word without escapes is read up to its end. -/
theorem scanWord_plain_eq
    {p next : Place}
    {name : Text}
    (hScan : scanWord p = some (name, false, next)) :
    p.rest = name ++ next.rest ∧
      endsWord next.rest = true := by
  have hSplit :
      p.rest =
        p.rest.takeWhile Text.isIdentPart ++
          p.rest.dropWhile Text.isIdentPart :=
    List.takeWhile_append_dropWhile.symm
  have hDrop :
      (p.after (p.rest.takeWhile Text.isIdentPart)).rest =
        p.rest.dropWhile Text.isIdentPart := by
    have hLeft :
        (p.rest.takeWhile Text.isIdentPart ++
            p.rest.dropWhile Text.isIdentPart).drop
            (p.rest.takeWhile Text.isIdentPart).length =
          p.rest.dropWhile Text.isIdentPart :=
      List.drop_left
    rw [← hSplit] at hLeft
    exact hLeft
  have hHead := List.head?_dropWhile_not Text.isIdentPart
    p.rest
  unfold scanWord at hScan
  simp only at hScan
  split at hScan
  · rcases Option.map_eq_some_iff.mp hScan with ⟨_, _, hEq⟩
    cases hEq
  · next hSlash =>
      split at hScan
      · cases hScan
      · cases hScan
        rw [hDrop] at hSlash ⊢
        refine ⟨hSplit, ?_⟩
        cases hRest : p.rest.dropWhile Text.isIdentPart with
        | nil => rfl
        | cons c cs =>
            rw [hRest] at hHead hSlash
            have hBack : c ≠ '\\' := by
              rintro rfl
              exact hSlash cs rfl
            simpa [endsWord, hBack] using hHead

/- A plain word starts with a letter where it stands. -/
theorem isIdentStart_of_standsAt
    {w cs : Text}
    {c : Char}
    (hPlain : Text.isPlainIdentifier w = true)
    (hStands : StandsAt w (c :: cs)) :
    (Text.isIdentStart c || c == '\\') = true := by
  by_contra hOther
  rw [Bool.not_eq_true, Bool.or_eq_false_iff,
    beq_eq_false_iff_ne] at hOther
  rcases hOther with ⟨hStart, hBack⟩
  rcases hStands with hPrefix | hEscapes
  · cases w with
    | nil => exact absurd hPlain (by decide)
    | cons d ds =>
        rcases hPrefix with ⟨rest, hText⟩
        rw [List.cons_append, List.cons.injEq] at hText
        rw [Text.isPlainIdentifier, Bool.and_eq_true,
          hText.1] at hPlain
        rw [Text.isIdentStart_of_isPlainStart hPlain.1]
          at hStart
        cases hStart
  · -- neither a letter nor an escape starts a name
    have hNone :
        ∀ fuel,
          scanEscapedWord fuel []
            { rest := c :: cs, pos := 0 } = none := by
      intro fuel
      cases fuel with
      | zero => rfl
      | succ fuel =>
          unfold scanEscapedWord
          split
          · simp_all
          · simp_all
          · simp_all
    unfold escapesTo scanWord at hEscapes
    simp only [hNone, Option.map_none] at hEscapes
    split at hEscapes
    · next hScan =>
        split at hScan
        · cases hScan
        · split at hScan <;> cases hScan
    · cases hEscapes

/- A plain word that is read stands at its place. -/
theorem scanToken_eq_word
    {p next : Place}
    {w : Text}
    (hPlain : Text.isPlainIdentifier w = true)
    (hScan : scanToken false p = (.word w false, next)) :
    p.rest = w ++ next.rest ∧ endsWord next.rest = true := by
  have hStands : StandsAt w p.rest :=
    (scanned_scanToken false p).word w false (by rw [hScan])
  unfold scanToken at hScan
  split at hScan
  · cases hScan
  · next c cs hRest =>
      rw [hRest] at hStands
      rw [if_pos (isIdentStart_of_standsAt hPlain hStands)]
        at hScan
      unfold wordToken at hScan
      split at hScan
      · next name next' hWord =>
          cases hScan
          exact scanWord_plain_eq hWord
      · split at hScan
        · cases hScan
        · simp only [escapedToken, Bool.false_and,
            Bool.false_eq_true, if_false] at hScan
          split_ifs at hScan <;> cases hScan
      · cases hScan

------------------------------------------------------------
-- Cursors At Words
------------------------------------------------------------

theorem isPlainStart_of_isPlainIdentifier
    {c : Char}
    {cs : Text}
    (hPlain : Text.isPlainIdentifier (c :: cs) = true) :
    Text.isPlainStart c = true := by
  rw [Text.isPlainIdentifier, Bool.and_eq_true] at hPlain
  exact hPlain.1

/- The cursor after what is skipped is at the word. -/
theorem Cursor.atPlace_word
    {gap w rest : Text}
    {newline : Bool}
    {p : Place}
    (hGap : Skips .outside false gap newline)
    (hPlain : Text.isPlainIdentifier w = true)
    (hEnd : endsWord rest = true)
    (hPlace : p.rest = gap ++ (w ++ rest))
    (fuel : Nat)
    (found : List Namespace) :
    (atPlace false fuel found p).token = .word w false ∧
      (atPlace false fuel found p).there.rest = rest ∧
      (atPlace false fuel found p).newline = newline := by
  cases w with
  | nil => exact absurd hPlain (by decide)
  | cons c cs =>
      have hStart := isPlainStart_of_isPlainIdentifier hPlain
      rcases hGap.skipGap_eq hStart (cs ++ rest) p.pos none
        with ⟨hNext, hNewline⟩
      have hScan := scanToken_word hPlain hEnd
        (p.pos + Text.size gap)
      rw [List.cons_append] at hPlace hScan
      rw [← hPlace] at hNext hNewline
      unfold atPlace
      simp only
      rw [hNext, hScan]
      exact ⟨rfl, rfl, hNewline⟩

/-
  The text around a cursor at a word.  The cursor starts
  at the word or at a comment of markup that is skipped.
-/
theorem Cursor.exists_of_token
    {w : Text}
    {p : Place}
    {fuel : Nat}
    {found : List Namespace}
    (hPlain : Text.isPlainIdentifier w = true)
    (hToken :
      (atPlace false fuel found p).token = .word w false) :
    ∃ first mark,
      p.rest =
          first ++ mark ++
            (w ++ (atPlace false fuel found p).there.rest) ∧
        Skips .outside false (first ++ mark)
          (atPlace false fuel found p).newline ∧
        endsWord (atPlace false fuel found p).there.rest =
          true ∧
        (atPlace false fuel found p).lo =
          p.pos + Text.size first := by
  let gap := skipGap .outside p.rest p.pos false none
  have hScan :
      scanToken false gap.next =
        (.word w false,
          (atPlace false fuel found p).there) := by
    rw [← hToken]
    rfl
  rcases scanToken_eq_word hPlain hScan with ⟨hRest, hEnd⟩
  cases w with
  | nil => exact absurd hPlain (by decide)
  | cons c cs =>
      have hStart := isPlainStart_of_isPlainIdentifier hPlain
      rw [List.cons_append] at hRest
      rcases exists_skips hRest with
        ⟨skipped, hText, hSkips, hMarks⟩
      have hNext := (hSkips.skipGap_eq hStart
        (cs ++ (atPlace false fuel found p).there.rest)
        p.pos none).1
      rw [← hText] at hNext
      rcases hMarks with hNone | ⟨first, mark, rfl, hMark⟩
      · refine ⟨skipped, [], ?_, ?_, hEnd, ?_⟩
        · rw [List.append_nil]
          exact hText
        · rw [List.append_nil]
          exact hSkips
        · unfold atPlace
          simp only
          rw [hNone, hNext]
          rfl
      · refine ⟨first, mark, hText, hSkips, hEnd, ?_⟩
        unfold atPlace
        simp only
        rw [hMark]
        rfl

end Script

end ComponentLoader
