import Mathlib.Tactic
import ComponentLoader.Proofs.Text.Cuts
import ComponentLoader.Text.Keyword

/-
  The search for the keyword of a class finds one, and no
  later than where a keyword stands alone: the first that
  does is found.

  Main declarations:
    * `Text.classKeyword`
    * `Text.StandsAlone`
    * `Text.Obstructs`
    * `Text.findKeyword_class`
    * `Text.findKeyword_of_not_obstructs`
    * `Text.exists_of_obstructs`
-/

------------------------------------------------------------
-- Keywords That Stand Alone
------------------------------------------------------------

namespace ComponentLoader

namespace Text

/- The keyword of a class. -/
def classKeyword : Text :=
  ['c', 'l', 'a', 's', 's']

/- A keyword between two texts is no part of a longer one. -/
def StandsAlone
    (before after : Text) : Prop :=
  isBoundary before.getLast? = true ∧
    isBoundary after.head? = true

theorem after?_append
    (word rest : Text) :
    after? word (word ++ rest) = some rest := by
  induction word with
  | nil => rfl
  | cons c cs ih => simpa [after?] using ih

theorem eq_append_of_after?
    {word t rest : Text}
    (hAfter : after? word t = some rest) :
    t = word ++ rest := by
  induction word generalizing t with
  | nil =>
      simp only [after?, Option.some.injEq] at hAfter
      exact hAfter
  | cons w ws ih =>
      cases t with
      | nil => exact absurd hAfter (by simp [after?])
      | cons c cs =>
          by_cases hChar : w = c
          · subst hChar
            simp only [after?, if_true] at hAfter
            rw [List.cons_append, ih hAfter]
          · simp [after?, hChar] at hAfter

/-
  A keyword starts with the only `c` in it, so that one is
  never passed over together with another.
-/
theorem length_of_class_overlap
    {c : Char}
    {before after rest : Text}
    (hText :
      c :: before ++ classKeyword ++ after =
        classKeyword ++ rest) :
    4 ≤ before.length := by
  match before with
  | [] => simp [classKeyword] at hText
  | [_] => simp [classKeyword] at hText
  | [_, _] => simp [classKeyword] at hText
  | [_, _, _] => simp [classKeyword] at hText
  | _ :: _ :: _ :: _ :: _ => simp

------------------------------------------------------------
-- The Search
------------------------------------------------------------

/-
  The search ends after a keyword, at the latest after one
  that stands alone.  `last` is what the search takes for
  the character before the text.
-/
theorem findKeywordFrom_class
    {before after : Text}
    {skip pos : Nat}
    {last : Option Char}
    (hSkip : skip ≤ before.length)
    (hBefore :
      isBoundary (before.getLast?.or last) = true)
    (hAfter : isBoundary after.head? = true) :
    ∃ found rest,
      before ++ classKeyword ++ after = found ++ rest ∧
        findKeywordFrom classKeyword skip last
            (before ++ classKeyword ++ after) pos =
          some (pos + size found) ∧
        size found ≤ size (before ++ classKeyword) := by
  induction before generalizing skip pos last with
  | nil =>
      have hZero : skip = 0 := by simpa using hSkip
      subst hZero
      refine ⟨classKeyword, after, rfl, ?_, ?_⟩
      · have hFound := after?_append classKeyword after
        simp only [List.nil_append, classKeyword,
          List.cons_append] at hFound hBefore ⊢
        rw [findKeywordFrom, hFound]
        simp only [List.getLast?_nil, Option.none_or]
          at hBefore
        simp [hBefore, hAfter]
      · simp
  | cons c cs ih =>
      have hLater :
          ∀ skip', skip' ≤ cs.length →
            ∃ found rest,
              c :: cs ++ classKeyword ++ after =
                  found ++ rest ∧
                findKeywordFrom classKeyword skip' (some c)
                    (cs ++ classKeyword ++ after)
                    (pos + c.utf8Size) =
                  some (pos + size found) ∧
                size found ≤
                  size (c :: cs ++ classKeyword) := by
        intro skip' hSkip'
        have hRest := @ih skip' (pos + c.utf8Size) (some c)
          hSkip'
          (by
            rw [List.getLast?_cons] at hBefore
            cases hLast : cs.getLast? with
            | none => simpa [hLast] using hBefore
            | some d => simpa [hLast] using hBefore)
        rcases hRest with ⟨found, rest, hText, hFind, hSize⟩
        refine ⟨c :: found, rest, ?_, ?_, ?_⟩
        · simpa using hText
        · rw [hFind]
          simp only [size]
          rw [Nat.add_assoc]
        · simp only [List.cons_append, size]
          omega
      cases skip with
      | succ skip =>
          have hSkip' : skip ≤ cs.length := by
            simpa using hSkip
          exact hLater skip hSkip'
      | zero =>
          rw [List.cons_append, List.cons_append,
            findKeywordFrom]
          cases hFound :
              after? classKeyword
                (c :: (cs ++ classKeyword ++ after)) with
          | none => exact hLater 0 (by simp)
          | some rest =>
              have hText := eq_append_of_after? hFound
              have hSkip' : 4 ≤ cs.length :=
                length_of_class_overlap hText
              simp only
              split
              · refine ⟨classKeyword, rest, hText, rfl, ?_⟩
                simp only [size_append, size]
                omega
              · exact hLater 4 hSkip'

/-
  A keyword that stands alone is found, or one before it.
-/
theorem findKeyword_class
    {before after : Text}
    (hAlone : StandsAlone before after) :
    ∃ found rest,
      before ++ classKeyword ++ after = found ++ rest ∧
        findKeyword classKeyword
            (before ++ classKeyword ++ after) =
          some (size found) ∧
        size found ≤ size (before ++ classKeyword) := by
  have hFrom := @findKeywordFrom_class before after 0 0 none
    (by simp) (by simpa using hAlone.1) hAlone.2
  rcases hFrom with ⟨found, rest, hText, hFind, hSize⟩
  refine ⟨found, rest, hText, ?_, hSize⟩
  simpa [findKeyword] using hFind

------------------------------------------------------------
-- The First Keyword
------------------------------------------------------------

/- The character before an end, with one more in front. -/
theorem getLast?_cons_or
    (c : Char)
    (cs : Text)
    (last : Option Char) :
    (c :: cs).getLast?.or last =
      cs.getLast?.or (some c) := by
  rw [List.getLast?_cons]
  cases cs.getLast? <;> rfl

/- What the search finds is a keyword that stands alone. -/
theorem exists_of_findKeywordFrom
    {t : Text}
    {skip pos stop : Nat}
    {last : Option Char}
    (hFind :
      findKeywordFrom classKeyword skip last t pos =
        some stop) :
    ∃ before after,
      t = before ++ classKeyword ++ after ∧
        isBoundary (before.getLast?.or last) = true ∧
        isBoundary after.head? = true ∧
        stop = pos + size (before ++ classKeyword) := by
  induction t generalizing skip pos last with
  | nil => exact absurd hFind (by simp [findKeywordFrom])
  | cons c cs ih =>
      have hLater :
          ∀ {skip'},
            findKeywordFrom classKeyword skip' (some c) cs
                (pos + c.utf8Size) = some stop →
              ∃ before after,
                c :: cs = before ++ classKeyword ++ after ∧
                  isBoundary (before.getLast?.or last) =
                    true ∧
                  isBoundary after.head? = true ∧
                  stop =
                    pos + size (before ++ classKeyword) := by
        intro skip' hRest
        rcases ih hRest with
          ⟨before, after, rfl, hBefore, hAfter, hStop⟩
        refine ⟨c :: before, after, rfl, ?_, hAfter, ?_⟩
        · rw [getLast?_cons_or]
          exact hBefore
        · rw [hStop, List.cons_append, size, Nat.add_assoc]
      cases skip with
      | succ skip =>
          rw [findKeywordFrom] at hFind
          exact hLater hFind
      | zero =>
          rw [findKeywordFrom] at hFind
          split at hFind
          · exact hLater hFind
          · next rest hWord =>
              split at hFind
              · next hAlone =>
                  rw [Bool.and_eq_true] at hAlone
                  rw [Option.some.injEq] at hFind
                  exact ⟨[], rest, eq_append_of_after? hWord,
                    hAlone.1, hAlone.2, hFind.symm⟩
              · exact hLater hFind

/-
  Whether the search for the keyword stops in a text that
  has the keyword after it.
-/
def Obstructs
    (t : Text) : Prop :=
  ∃ before after,
    t = before ++ classKeyword ++ after ∧
      StandsAlone before (after ++ classKeyword)

/- The keyword does not overlap itself. -/
theorem eq_nil_or_exists_of_class
    {t after rest : Text}
    (hText :
      t ++ classKeyword ++ after = classKeyword ++ rest) :
    t = [] ∨
      ∃ more, t = classKeyword ++ more ∧
        rest = more ++ classKeyword ++ after := by
  cases t with
  | nil => exact Or.inl rfl
  | cons c cs =>
      right
      have hLength : 4 ≤ cs.length :=
        length_of_class_overlap hText
      rw [List.append_assoc] at hText
      rcases List.append_eq_append_iff.mp hText with
        ⟨more, hWord, hRest⟩ | ⟨more, hStart, hRest⟩
      · -- the two are of the same length
        have hSize := congrArg List.length hWord
        simp only [classKeyword, List.length_append,
          List.length_cons, List.length_nil] at hSize
        have hMore : more = [] :=
          List.eq_nil_of_length_eq_zero (by omega)
        subst hMore
        refine ⟨[], ?_, ?_⟩
        · rw [hWord, List.append_nil, List.append_nil]
        · simpa using hRest.symm
      · refine ⟨more, hStart, ?_⟩
        rw [hRest, List.append_assoc]

/- Of two keywords one is before the other. -/
theorem eq_or_exists_of_class
    {t after before rest : Text}
    (hText :
      t ++ classKeyword ++ after =
        before ++ classKeyword ++ rest)
    (hSize : size before ≤ size t) :
    before = t ∨
      ∃ more, t = before ++ classKeyword ++ more ∧
        rest = more ++ classKeyword ++ after := by
  rw [List.append_assoc, List.append_assoc] at hText
  rcases exists_append_of_size_le hText.symm hSize with
    ⟨between, rfl, hWord⟩
  rw [← List.append_assoc] at hWord
  rcases eq_nil_or_exists_of_class hWord.symm with
    rfl | ⟨more, rfl, hRest⟩
  · exact Or.inl (List.append_nil _).symm
  · exact Or.inr ⟨more, by simp, hRest⟩

/- The search finds a keyword or one before it. -/
theorem exists_findKeyword
    {t after : Text}
    (hAlone : StandsAlone t after) :
    ∃ before rest,
      t ++ classKeyword ++ after =
          before ++ classKeyword ++ rest ∧
        StandsAlone before rest ∧
        size before ≤ size t ∧
        findKeyword classKeyword
            (t ++ classKeyword ++ after) =
          some (size (before ++ classKeyword)) := by
  rcases findKeyword_class hAlone with
    ⟨found, _, _, hFind, hSize⟩
  have hStop := hFind
  unfold findKeyword at hStop
  rcases exists_of_findKeywordFrom hStop with
    ⟨before, rest, hText, hBefore, hRest, hFound⟩
  rw [Option.or_none] at hBefore
  rw [Nat.zero_add] at hFound
  rw [hFound] at hFind hSize
  refine ⟨before, rest, hText, ⟨hBefore, hRest⟩, ?_, hFind⟩
  rw [size_append, size_append] at hSize
  omega

/- The keyword is found if nothing is in the way. -/
theorem findKeyword_of_not_obstructs
    {t after : Text}
    (hAlone : StandsAlone t after)
    (hClear : ¬ Obstructs t) :
    findKeyword classKeyword (t ++ classKeyword ++ after) =
      some (size (t ++ classKeyword)) := by
  rcases exists_findKeyword hAlone with
    ⟨before, rest, hText, hStands, hSize, hFind⟩
  rcases eq_or_exists_of_class hText hSize with
    rfl | ⟨more, rfl, rfl⟩
  · exact hFind
  · exfalso
    apply hClear
    refine ⟨before, more, rfl, hStands.1, ?_⟩
    have hEnd := hStands.2
    rw [List.head?_append_of_ne_nil _
      (by simp [classKeyword])] at hEnd
    exact hEnd

/- Otherwise the first of those in the way is found. -/
theorem exists_of_obstructs
    {t after : Text}
    (hAlone : StandsAlone t after)
    (hObstructs : Obstructs t) :
    ∃ before more,
      t = before ++ classKeyword ++ more ∧
        StandsAlone before (more ++ classKeyword) ∧
        findKeyword classKeyword
            (t ++ classKeyword ++ after) =
          some (size (before ++ classKeyword)) := by
  have hHead :
      ∀ more : Text,
        (more ++ classKeyword ++ after).head? =
          (more ++ classKeyword).head? := fun more =>
    List.head?_append_of_ne_nil _ (by simp [classKeyword])
  rcases exists_findKeyword hAlone with
    ⟨before, rest, hText, hStands, hSize, hFind⟩
  rcases eq_or_exists_of_class hText hSize with
    rfl | ⟨more, hBefore, rfl⟩
  · -- the search would have stopped before
    rcases hObstructs with ⟨start, tail, rfl, hStart, hEnd⟩
    have hEarlier :
        StandsAlone start (tail ++ classKeyword ++ after) :=
      ⟨hStart, by rw [hHead]; exact hEnd⟩
    rcases exists_findKeyword hEarlier with
      ⟨first, _, _, _, hFirst, hOther⟩
    have hSame :
        start ++ classKeyword ++ tail ++ classKeyword ++
            after =
          start ++ classKeyword ++
            (tail ++ classKeyword ++ after) := by
      simp only [List.append_assoc]
    have hWord : size classKeyword = 5 := by decide
    rw [← hSame, hFind, Option.some.injEq] at hOther
    simp only [size_append] at hOther
    omega
  · refine ⟨before, more, hBefore, ⟨hStands.1, ?_⟩, hFind⟩
    have hEnd := hStands.2
    rw [hHead] at hEnd
    exact hEnd

end Text

end ComponentLoader
