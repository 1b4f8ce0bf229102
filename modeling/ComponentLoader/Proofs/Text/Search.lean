import Mathlib.Tactic
import ComponentLoader.Proofs.Loop
import ComponentLoader.Proofs.Text.Bytes
import ComponentLoader.Proofs.Text.Offset

/-
  The search for the keyword of a class comes to the first
  position at which a keyword that stands alone ends.

  The search can also go from one occurrence of the keyword
  to the next, starting over at the end of each.  This is a
  loop over positions, in which a text can only be cut
  between characters; it misses no keyword.

  Main declarations:
    * `Text.EndsKeyword`
    * `Text.endsKeyword_iff`
    * `Text.searchStep`
    * `Text.returns_searchStep`
    * `Text.findKeyword_isLeast`
-/

------------------------------------------------------------
-- Ends Of Keywords
------------------------------------------------------------

namespace ComponentLoader

namespace Text

/-
  Whether a keyword that stands alone ends at a position:
  the bytes before it are those of the keyword, and the
  characters on both sides are no parts of a plain name.
-/
structure EndsKeyword
    (t : Text)
    (stop : Nat) : Prop where
  inside : stop ≤ t.size
  bytes :
    Utf8.encode classKeyword <:+ (Utf8.encode t).take stop
  before :
    isBoundary
        (takeBytes (stop - classKeyword.size) t).getLast? =
      true
  after :
    isBoundary (dropBytes stop t).head? = true

/- These bytes are the keyword, between two other texts. -/
theorem endsKeyword_iff
    {t : Text}
    {stop : Nat} :
    EndsKeyword t stop ↔
      ∃ before after,
        t = before ++ classKeyword ++ after ∧
          stop = size (before ++ classKeyword) ∧
          StandsAlone before after := by
  constructor
  · rintro ⟨hInside, ⟨first, hFirst⟩, hBefore, hAfter⟩
    have hBytes :
        Utf8.encode t =
          first ++ Utf8.encode classKeyword ++
            (Utf8.encode t).drop stop := by
      rw [hFirst, List.take_append_drop]
    rcases Utf8.exists_append_of_encode (by decide)
        (by decide) hBytes with
      ⟨before, after, rfl, hStart, _⟩
    have hStop : stop = size (before ++ classKeyword) := by
      have hLength := congrArg List.length hFirst
      rw [List.length_take, Utf8.length_encode,
        Nat.min_eq_left hInside, ← hStart, ← Utf8.encode_append,
        Utf8.length_encode] at hLength
      exact hLength.symm
    refine ⟨before, after, rfl, hStop, ?_, ?_⟩
    · rw [hStop, size_append, Nat.add_sub_cancel_right,
        List.append_assoc, takeBytes_append] at hBefore
      exact hBefore
    · rw [hStop, dropBytes_append] at hAfter
      exact hAfter
  · rintro ⟨before, after, rfl, rfl, hBefore, hAfter⟩
    constructor
    case inside =>
      rw [size_append (before ++ classKeyword) after]
      omega
    case bytes =>
      refine ⟨Utf8.encode before, ?_⟩
      rw [← Utf8.encode_append,
        Utf8.encode_append (before ++ classKeyword),
        ← Utf8.length_encode, List.take_left']
      rfl
    case before =>
      rw [size_append, Nat.add_sub_cancel_right,
        List.append_assoc, takeBytes_append]
      exact hBefore
    case after =>
      rw [dropBytes_append]
      exact hAfter

------------------------------------------------------------
-- From One Occurrence To The Next
------------------------------------------------------------

/-
  Look for the next occurrence from a position on, and
  start over at its end if it does not stand alone.
-/
def searchStep
    (t : Text)
    (i : Nat) : Loop.State Nat (Option Nat) :=
  Loop.reading (t.splitAt? i) fun cut =>
    match offset? classKeyword cut.2 with
    | none => .finished none
    | some found =>
        let start := i + found
        let stop := start + classKeyword.size
        Loop.reading (t.splitAt? start) fun first =>
          Loop.reading (t.splitAt? stop) fun second =>
            if isBoundary first.1.getLast? &&
                isBoundary second.2.head? then
              .finished (some stop)
            else
              .running stop

/- No keyword starts before the first one. -/
theorem after?_eq_none_of_first
    {c : Char}
    {cs after : Text}
    (hFirst :
      ¬ classKeyword <:+: c :: cs ++ classKeyword.dropLast) :
    after? classKeyword
        (c :: (cs ++ classKeyword ++ after)) =
      none := by
  by_contra hSome
  apply hFirst
  have hPrefix :=
    isSome_after?_iff.mp (Option.isSome_iff_ne_none.mpr hSome)
  refine List.IsPrefix.isInfix
    (List.prefix_of_prefix_length_le hPrefix
      (append_dropLast_isPrefix (c :: cs) classKeyword after)
      ?_)
  simp [classKeyword]

/- The search comes to the first keyword. -/
theorem findKeywordFrom_passed
    {passed after : Text}
    {last : Option Char}
    {pos : Nat}
    (hFirst :
      ¬ classKeyword <:+: passed ++ classKeyword.dropLast) :
    findKeywordFrom classKeyword 0 last
        (passed ++ classKeyword ++ after) pos =
      findKeywordFrom classKeyword 0
        (passed.getLast?.or last) (classKeyword ++ after)
        (pos + passed.size) := by
  induction passed generalizing last pos with
  | nil => rfl
  | cons c cs ih =>
      have hRest :
          ¬ classKeyword <:+: cs ++ classKeyword.dropLast :=
        fun hInfix => hFirst (List.infix_cons hInfix)
      rw [List.cons_append, List.cons_append,
        findKeywordFrom, after?_eq_none_of_first hFirst]
      simp only
      rw [ih hRest, getLast?_cons_or, size, Nat.add_assoc]

/- Without a keyword there is nothing to be found. -/
theorem findKeywordFrom_eq_none
    {t : Text}
    (hNot : ¬ classKeyword <:+: t)
    (last : Option Char)
    (pos : Nat) :
    findKeywordFrom classKeyword 0 last t pos = none := by
  cases hFind :
      findKeywordFrom classKeyword 0 last t pos with
  | none => rfl
  | some stop =>
      rcases exists_of_findKeywordFrom hFind with
        ⟨before, after, hText, _⟩
      exact absurd ⟨before, after, hText.symm⟩ hNot

/-
  At a keyword the search ends, or it goes on behind it:
  no other keyword starts inside.
-/
theorem findKeywordFrom_keyword
    (last : Option Char)
    (after : Text)
    (pos : Nat) :
    findKeywordFrom classKeyword 0 last
        (classKeyword ++ after) pos =
      if isBoundary last && isBoundary after.head? then
        some (pos + classKeyword.size)
      else
        findKeywordFrom classKeyword 0 (some 's') after
          (pos + classKeyword.size) := by
  have hAfter := after?_append classKeyword after
  simp only [classKeyword, List.cons_append,
    List.nil_append] at hAfter ⊢
  rw [findKeywordFrom, hAfter]
  simp only
  split
  · rfl
  · rfl

/- A step comes to the first keyword behind a position. -/
theorem searchStep_found
    (before : Text)
    {passed after : Text}
    (hOffset :
      offset? classKeyword
          (passed ++ classKeyword ++ after) =
        some passed.size) :
    searchStep
        (before ++ (passed ++ classKeyword ++ after))
        before.size =
      if isBoundary (before ++ passed).getLast? &&
          isBoundary after.head? then
        .finished
          (some (size (before ++ passed ++ classKeyword)))
      else
        .running
          (size (before ++ passed ++ classKeyword)) := by
  have hText :
      before ++ (passed ++ classKeyword ++ after) =
        before ++ passed ++ classKeyword ++ after := by
    simp
  have hStart := splitAt?_append (before ++ passed)
    (classKeyword ++ after)
  have hStop :=
    splitAt?_append (before ++ passed ++ classKeyword) after
  rw [← List.append_assoc, ← hText] at hStart
  rw [← hText] at hStop
  rw [searchStep, splitAt?_append, Loop.reading_some]
  simp only [hOffset]
  rw [← size_append before passed, hStart, Loop.reading_some,
    ← size_append (before ++ passed) classKeyword, hStop,
    Loop.reading_some]

/-
  From a position between characters on, the loop finds
  what the search finds in the rest.
-/
theorem returns_searchStep
    (before rest : Text) :
    Loop.Returns (searchStep (before ++ rest)) before.size
      (findKeywordFrom classKeyword 0 before.getLast? rest
        before.size) := by
  induction hLength : rest.length using Nat.strong_induction_on
    generalizing before rest with
  | h n ih =>
      subst hLength
      have hSome : classKeyword ≠ [] := by decide
      rcases offset?_cases hSome rest with
        ⟨hNone, hNot⟩ |
        ⟨passed, after, rfl, hOffset, hFirst⟩
      · apply Loop.returns_of_finished
        rw [searchStep, splitAt?_append, Loop.reading_some]
        simp only [hNone]
        rw [findKeywordFrom_eq_none hNot]
      · have hStep := searchStep_found before hOffset
        rw [findKeywordFrom_passed hFirst,
          findKeywordFrom_keyword, ← List.getLast?_append,
          ← size_append before passed,
          ← size_append (before ++ passed) classKeyword]
        split
        · next hAlone =>
            rw [if_pos hAlone] at hStep
            exact Loop.returns_of_finished hStep
        · next hAlone =>
            rw [if_neg hAlone] at hStep
            rw [Loop.returns_iff hStep]
            have hRest := ih after.length
              (by
                rw [List.length_append, List.length_append]
                have hWord : classKeyword.length = 5 := rfl
                omega)
              (before ++ passed ++ classKeyword) after rfl
            have hLast :
                (before ++ passed ++
                  classKeyword).getLast? = some 's' := by
              rw [List.getLast?_append]
              rfl
            rw [hLast] at hRest
            simpa only [List.append_assoc] using hRest

------------------------------------------------------------
-- The First Keyword That Stands Alone
------------------------------------------------------------

/- What is found is the end of a keyword. -/
theorem endsKeyword_of_findKeyword
    {t : Text}
    {stop : Nat}
    (hFind : findKeyword classKeyword t = some stop) :
    EndsKeyword t stop := by
  unfold findKeyword at hFind
  rcases exists_of_findKeywordFrom hFind with
    ⟨before, after, rfl, hBefore, hAfter, hStop⟩
  rw [Option.or_none] at hBefore
  rw [Nat.zero_add] at hStop
  exact endsKeyword_iff.mpr
    ⟨before, after, rfl, hStop, hBefore, hAfter⟩

/- If there is an end of a keyword one is found by then. -/
theorem exists_of_endsKeyword
    {t : Text}
    {stop : Nat}
    (hEnds : EndsKeyword t stop) :
    ∃ first,
      findKeyword classKeyword t = some first ∧
        first ≤ stop := by
  rcases endsKeyword_iff.mp hEnds with
    ⟨before, after, rfl, rfl, hAlone⟩
  rcases findKeyword_class hAlone with
    ⟨found, _, _, hFind, hSize⟩
  exact ⟨found.size, hFind, hSize⟩

/-
  A position is found exactly if it is the first at which a
  keyword that stands alone ends, and none if there is no
  such position.  The loop that starts over at the end of
  each occurrence comes to its end with the same, and cuts
  the text only between characters.
-/
theorem findKeyword_isLeast
    (t : Text) :
    (∀ stop,
      findKeyword classKeyword t = some stop ↔
        IsLeast {stop | EndsKeyword t stop} stop) ∧
      (findKeyword classKeyword t = none ↔
        ∀ stop, ¬ EndsKeyword t stop) ∧
      Loop.Returns (searchStep t) 0
        (findKeyword classKeyword t) := by
  refine ⟨?_, ?_, returns_searchStep [] t⟩
  · intro stop
    constructor
    · intro hFind
      refine ⟨endsKeyword_of_findKeyword hFind, ?_⟩
      intro other hOther
      rcases exists_of_endsKeyword hOther with
        ⟨first, hFirst, hLe⟩
      rw [hFind, Option.some.injEq] at hFirst
      rw [hFirst]
      exact hLe
    · rintro ⟨hEnds, hLeast⟩
      rcases exists_of_endsKeyword hEnds with
        ⟨first, hFirst, hLe⟩
      have hGe := hLeast (endsKeyword_of_findKeyword hFirst)
      rw [hFirst, Nat.le_antisymm hLe hGe]
  · constructor
    · intro hNone stop hEnds
      rcases exists_of_endsKeyword hEnds with
        ⟨first, hFirst, _⟩
      rw [hNone] at hFirst
      cases hFirst
    · intro hNot
      cases hFind : findKeyword classKeyword t with
      | none => rfl
      | some stop =>
          exact absurd (endsKeyword_of_findKeyword hFind)
            (hNot stop)

/- A keyword in a longer name does not count. -/
example :
    findKeyword classKeyword "subclass; é class A".toList =
      some 18 := by
  decide

end Text

end ComponentLoader
