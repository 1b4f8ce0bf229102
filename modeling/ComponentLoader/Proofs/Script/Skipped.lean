import Mathlib.Tactic
import ComponentLoader.Proofs.Script.Lexer
import ComponentLoader.Proofs.Script.Tokens
import ComponentLoader.Text.Keyword

/-
  What is skipped between two tokens, comments of markup
  included, whatever word comes after it.

  Main declarations:
    * `Script.Skips`
    * `Script.Skips.skipGap_eq`
    * `Script.exists_skips`
    * `Script.Skips.isBoundary`
    * `Script.Skips.insert`
-/

------------------------------------------------------------
-- Skipped Texts
------------------------------------------------------------

namespace ComponentLoader

namespace Script

/-
  A text that is skipped up to its end, from inside or
  outside of a comment.  The flags say whether a line has
  ended before the text, and before its end.
-/
inductive Skips : Within → Bool → Text → Bool → Prop where
  | done
      (newline : Bool) :
      Skips .outside newline [] newline
  | blank
      {newline ended : Bool}
      {c : Char}
      {t : Text}
      (hBlank : isGapChar c = true)
      (hRest :
        Skips .outside (newline || Text.isLineEnd c) t
          ended) :
      Skips .outside newline (c :: t) ended
  | line
      {newline ended : Bool}
      {t : Text}
      (hRest : Skips .line newline t ended) :
      Skips .outside newline ('/' :: '/' :: t) ended
  | block
      {newline ended : Bool}
      {t : Text}
      (hRest : Skips .block newline t ended) :
      Skips .outside newline ('/' :: '*' :: t) ended
  | markup
      {newline ended : Bool}
      {t : Text}
      (hRest : Skips .line newline t ended) :
      Skips .outside newline ('<' :: '!' :: '-' :: '-' :: t)
        ended
  | markupEnd
      {ended : Bool}
      {t : Text}
      (hRest : Skips .line true ('-' :: '>' :: t) ended) :
      Skips .outside true ('-' :: '-' :: '>' :: t) ended
  | lineChar
      {newline ended : Bool}
      {c : Char}
      {t : Text}
      (hChar : Text.isLineEnd c = false)
      (hRest : Skips .line newline t ended) :
      Skips .line newline (c :: t) ended
  | lineEnd
      {newline ended : Bool}
      {c : Char}
      {t : Text}
      (hEnd : Text.isLineEnd c = true)
      (hRest : Skips .outside true t ended) :
      Skips .line newline (c :: t) ended
  | blockChar
      {newline ended : Bool}
      {c : Char}
      {t : Text}
      (hOpen : ∀ u, c = '*' → t ≠ '/' :: u)
      (hRest :
        Skips .block (newline || Text.isLineEnd c) t
          ended) :
      Skips .block newline (c :: t) ended
  | blockEnd
      {newline ended : Bool}
      {t : Text}
      (hRest : Skips .outside newline t ended) :
      Skips .block newline ('*' :: '/' :: t) ended

/- Nothing is skipped where a plain word starts. -/
theorem skipGap_plainStart
    {c : Char}
    (hStart : Text.isPlainStart c = true)
    (cs : Text)
    (pos : Nat)
    (newline : Bool)
    (mark : Option Nat) :
    skipGap .outside (c :: cs) pos newline mark =
      { next := { rest := c :: cs, pos := pos }
        newline := newline
        mark := mark } := by
  have hSolid := isSolid_of_isPlainStart hStart
  have hMinus : c ≠ '-' := by
    rintro rfl
    exact absurd hStart (by decide)
  unfold skipGap
  split <;> simp_all [isSolid]

theorem isGapChar_angle :
    isGapChar '<' = false := by
  decide

theorem skipGap_blank
    {c : Char}
    (hBlank : isGapChar c = true)
    (cs : Text)
    (pos : Nat)
    (newline : Bool)
    (mark : Option Nat) :
    skipGap .outside (c :: cs) pos newline mark =
      skipGap .outside cs (pos + c.utf8Size)
        (newline || Text.isLineEnd c) mark := by
  have hSlash : c ≠ '/' := by
    rintro rfl
    rw [not_isGapChar_slash] at hBlank
    cases hBlank
  have hAngle : c ≠ '<' := by
    rintro rfl
    rw [isGapChar_angle] at hBlank
    cases hBlank
  conv_lhs => unfold skipGap
  split <;> simp_all

theorem skipGap_blockChar
    {c : Char}
    {cs : Text}
    (hOpen : ∀ u, c = '*' → cs ≠ '/' :: u)
    (pos : Nat)
    (newline : Bool)
    (mark : Option Nat) :
    skipGap .block (c :: cs) pos newline mark =
      skipGap .block cs (pos + c.utf8Size)
        (newline || Text.isLineEnd c) mark := by
  conv_lhs => unfold skipGap
  split <;> simp_all

theorem skipGap_line
    (c : Char)
    (cs : Text)
    (pos : Nat)
    (newline : Bool)
    (mark : Option Nat) :
    skipGap .line (c :: cs) pos newline mark =
      if Text.isLineEnd c then
        skipGap .outside cs (pos + c.utf8Size) true mark
      else
        skipGap .line cs (pos + c.utf8Size) newline mark := by
  conv_lhs => unfold skipGap
  split <;> simp_all

/- The size of a text behind two one-byte characters. -/
theorem size_cons_cons
    {c d : Char}
    (hFirst : c.utf8Size = 1)
    (hSecond : d.utf8Size = 1)
    (t : Text) :
    Text.size (c :: d :: t) = 2 + t.size := by
  rw [Text.size, Text.size, hFirst, hSecond]
  omega

/- A skipped text is skipped in front of any word. -/
theorem Skips.skipGap_eq
    {within : Within}
    {newline ended : Bool}
    {t : Text}
    (hSkips : Skips within newline t ended)
    {c : Char}
    (hStart : Text.isPlainStart c = true)
    (cs : Text)
    (pos : Nat)
    (mark : Option Nat) :
    (skipGap within (t ++ c :: cs) pos newline mark).next =
        { rest := c :: cs, pos := pos + Text.size t } ∧
      (skipGap within (t ++ c :: cs) pos newline
        mark).newline = ended := by
  have hSlash : '/'.utf8Size = 1 := by decide
  have hStar : '*'.utf8Size = 1 := by decide
  have hMinus : '-'.utf8Size = 1 := by decide
  induction hSkips generalizing pos mark with
  | done newline =>
      rw [List.nil_append, skipGap_plainStart hStart]
      exact ⟨rfl, rfl⟩
  | @blank _ _ d t hBlank _ ih =>
      rw [List.cons_append, skipGap_blank hBlank, Text.size,
        ← Nat.add_assoc]
      exact ih _ _
  | @line _ _ t _ ih =>
      rw [size_cons_cons hSlash hSlash, ← Nat.add_assoc]
      exact ih (pos + 2) mark
  | @block _ _ t _ ih =>
      rw [size_cons_cons hSlash hStar, ← Nat.add_assoc]
      exact ih (pos + 2) mark
  | @markup _ _ t _ ih =>
      have hSize :
          pos + Text.size ('<' :: '!' :: '-' :: '-' :: t) =
            pos + 4 + t.size := by
        rw [size_cons_cons (by decide) (by decide),
          size_cons_cons hMinus hMinus]
        omega
      rw [hSize]
      exact ih (pos + 4) (mark.orElse fun _ => some pos)
  | @markupEnd _ t _ ih =>
      rw [Text.size, hMinus, ← Nat.add_assoc]
      exact ih (pos + 1) (mark.orElse fun _ => some pos)
  | @lineChar _ _ d t hChar _ ih =>
      rw [List.cons_append, skipGap_line, hChar, Text.size,
        ← Nat.add_assoc]
      exact ih _ _
  | @lineEnd _ _ d t hEnd _ ih =>
      rw [List.cons_append, skipGap_line, if_pos hEnd,
        Text.size, ← Nat.add_assoc]
      exact ih _ _
  | @blockChar _ _ d t hOpen hRest ih =>
      have hAfter :
          ∀ u, d = '*' → t ++ c :: cs ≠ '/' :: u := by
        intro u hStar hSlash
        cases t with
        | nil => cases hRest
        | cons e es =>
            rw [List.cons_append, List.cons.injEq] at hSlash
            exact hOpen es hStar (by rw [hSlash.1])
      rw [List.cons_append, skipGap_blockChar hAfter,
        Text.size, ← Nat.add_assoc]
      exact ih _ _
  | @blockEnd _ _ t _ ih =>
      rw [size_cons_cons hStar hSlash, ← Nat.add_assoc]
      exact ih (pos + 2) mark

/-
  Where the first comment of markup starts in a skipped
  text, unless one was noted before.
-/
def MarksIn
    (pos : Nat)
    (t : Text)
    (before after : Option Nat) : Prop :=
  after = before ∨
    ∃ first rest, t = first ++ rest ∧
      after = some (pos + Text.size first)

theorem MarksIn.append
    {pos : Nat}
    {t : Text}
    {before after : Option Nat}
    {first : Text}
    (hMarks :
      MarksIn (pos + Text.size first) t before after) :
    MarksIn pos (first ++ t) before after := by
  rcases hMarks with hSame | ⟨start, rest, rfl, hAfter⟩
  · exact Or.inl hSame
  · refine Or.inr ⟨first ++ start, rest, by simp, ?_⟩
    rw [hAfter, Text.size_append, Nat.add_assoc]

/- A comment of markup is noted where it starts. -/
theorem MarksIn.of_orElse
    {pos : Nat}
    {t : Text}
    {before after : Option Nat}
    (hMarks :
      MarksIn pos t (before.orElse fun _ => some pos)
        after) :
    MarksIn pos t before after := by
  rcases hMarks with rfl | hLater
  · cases before with
    | some _ => exact Or.inl rfl
    | none => exact Or.inr ⟨[], t, rfl, rfl⟩
  · exact Or.inr hLater

/-
  What is skipped in front of a token is a text, and the
  comments of markup that are noted stand in it.
-/
theorem exists_skips
    {within : Within}
    {t cs : Text}
    {pos : Nat}
    {newline : Bool}
    {mark : Option Nat}
    {c : Char}
    (hRest :
      (skipGap within t pos newline mark).next.rest =
        c :: cs) :
    ∃ s, t = s ++ c :: cs ∧
      Skips within newline s
        (skipGap within t pos newline mark).newline ∧
      MarksIn pos s mark
        (skipGap within t pos newline mark).mark := by
  fun_induction skipGap within t pos newline mark with
  | case1 => exact absurd hRest (by simp)
  | case2 cs' pos newline mark ih =>
      rcases ih hRest with ⟨s, rfl, hSkips, hMarks⟩
      exact ⟨['/', '/'] ++ s, rfl, .line hSkips,
        hMarks.append⟩
  | case3 cs' pos newline mark ih =>
      rcases ih hRest with ⟨s, rfl, hSkips, hMarks⟩
      exact ⟨['/', '*'] ++ s, rfl, .block hSkips,
        hMarks.append⟩
  | case4 cs' pos newline mark ih =>
      rcases ih hRest with ⟨s, rfl, hSkips, hMarks⟩
      exact ⟨['<', '!', '-', '-'] ++ s, rfl, .markup hSkips,
        hMarks.append.of_orElse⟩
  | case5 d ds pos newline mark _ _ _ hBlank ih =>
      rcases ih hRest with ⟨s, rfl, hSkips, hMarks⟩
      exact ⟨[d] ++ s, rfl, .blank hBlank hSkips,
        hMarks.append⟩
  | case6 d ds pos newline mark _ _ _ hBlank hMark ih =>
      rcases ih hRest with ⟨s, rfl, hSkips, hMarks⟩
      simp only [Bool.and_eq_true, decide_eq_true_eq]
        at hMark
      rcases hMark with ⟨⟨rfl, rfl⟩, hArrow⟩
      cases s with
      | nil => cases hSkips
      | cons e es =>
          cases es with
          | nil =>
              cases hSkips with
              | lineChar _ hNone => cases hNone
              | lineEnd hEnd _ =>
                  rw [List.singleton_append,
                    List.take_succ_cons, List.cons.injEq]
                    at hArrow
                  rw [hArrow.1] at hEnd
                  exact absurd hEnd (by decide)
          | cons f rest =>
              have hBoth : e = '-' ∧ f = '>' := by
                simpa using hArrow
              rcases hBoth with ⟨rfl, rfl⟩
              exact ⟨['-'] ++ '-' :: '>' :: rest, rfl,
                .markupEnd hSkips, hMarks.append.of_orElse⟩
  | case7 =>
      refine ⟨[], hRest, .done _, Or.inl rfl⟩
  | case8 d ds pos newline mark hEnd ih =>
      rcases ih hRest with ⟨s, rfl, hSkips, hMarks⟩
      exact ⟨[d] ++ s, rfl, .lineEnd hEnd hSkips,
        hMarks.append⟩
  | case9 d ds pos newline mark hEnd ih =>
      rcases ih hRest with ⟨s, rfl, hSkips, hMarks⟩
      exact ⟨[d] ++ s, rfl, .lineChar (by simpa using hEnd)
        hSkips, hMarks.append⟩
  | case10 ds pos newline mark ih =>
      rcases ih hRest with ⟨s, rfl, hSkips, hMarks⟩
      exact ⟨['*', '/'] ++ s, rfl, .blockEnd hSkips,
        hMarks.append⟩
  | case11 d ds pos newline mark hOpen ih =>
      rcases ih hRest with ⟨s, rfl, hSkips, hMarks⟩
      refine ⟨[d] ++ s, rfl, .blockChar ?_ hSkips,
        hMarks.append⟩
      rintro u hStar rfl
      exact hOpen _ hStar rfl

------------------------------------------------------------
-- Words In Comments
------------------------------------------------------------

/- Outside of a comment there are no letters. -/
theorem not_isPlainPart
    {c : Char}
    (hGap : isGapChar c = true ∨ Text.isLineEnd c = true) :
    Text.isPlainPart c = false := by
  have hAll :
      ∀ n : Fin 0x80,
        Text.isPlainPart (Char.ofNat n) = true →
          ¬ (isGapChar (Char.ofNat n) = true ∨
            Text.isLineEnd (Char.ofNat n) = true) := by
    decide +kernel
  by_contra hPart
  rw [Bool.not_eq_false] at hPart
  have hChar := hAll
    ⟨c.toNat, Text.toNat_lt_of_isPlainPart hPart⟩
  rw [Char.ofNat_toNat] at hChar
  exact hChar hPart hGap

/- A word stands alone after what is skipped. -/
theorem Skips.isBoundary
    {within : Within}
    {newline ended : Bool}
    {t : Text}
    (hSkips : Skips within newline t ended) :
    Text.isBoundary t.getLast? = true := by
  have hLast :
      ∀ (c : Char) {t : Text},
        Text.isPlainPart c = false →
        Text.isBoundary t.getLast? = true →
          Text.isBoundary (c :: t).getLast? = true := by
    intro c t hChar hRest
    rw [List.getLast?_cons]
    cases hOther : t.getLast? with
    | none => simpa [Text.isBoundary] using hChar
    | some d => simpa [hOther, Text.isBoundary] using hRest
  have hInside :
      ∀ {within : Within} {newline ended : Bool} (c : Char)
        {t : Text},
        within ≠ .outside →
        Skips within newline t ended →
        Text.isBoundary t.getLast? = true →
          Text.isBoundary (c :: t).getLast? = true := by
    intro within newline ended c t hWithin hSkips hRest
    cases t with
    | nil =>
        cases hSkips
        exact absurd rfl hWithin
    | cons d ds =>
        rw [List.getLast?_cons_cons]
        exact hRest
  induction hSkips with
  | done => rfl
  | blank hBlank _ ih =>
      exact hLast _ (not_isPlainPart (Or.inl hBlank)) ih
  | line _ ih =>
      exact hLast '/' (by decide) (hLast '/' (by decide) ih)
  | block _ ih =>
      exact hLast '/' (by decide) (hLast '*' (by decide) ih)
  | markup _ ih =>
      exact hLast '<' (by decide) (hLast '!' (by decide)
        (hLast '-' (by decide) (hLast '-' (by decide) ih)))
  | markupEnd _ ih => exact hLast '-' (by decide) ih
  | @lineChar _ _ c _ _ hRest ih =>
      exact hInside c (by simp) hRest ih
  | lineEnd hEnd _ ih =>
      exact hLast _ (not_isPlainPart (Or.inr hEnd)) ih
  | @blockChar _ _ c _ _ hRest ih =>
      exact hInside c (by simp) hRest ih
  | blockEnd _ ih =>
      exact hLast '*' (by decide) (hLast '/' (by decide) ih)

/- A character that keeps a comment open. -/
def isQuiet
    (c : Char) : Bool :=
  !Text.isLineEnd c && c != '*' && c != '/'

theorem isQuiet_of_isPlainPart
    {c : Char}
    (hPart : Text.isPlainPart c = true) :
    isQuiet c = true := by
  have hLine : Text.isLineEnd c = false := by
    by_contra hEnd
    rw [Bool.not_eq_false] at hEnd
    rw [not_isPlainPart (Or.inr hEnd)] at hPart
    cases hPart
  have hStar : c ≠ '*' := by
    rintro rfl
    exact absurd hPart (by decide)
  have hSlash : c ≠ '/' := by
    rintro rfl
    exact absurd hPart (by decide)
  simp [isQuiet, hLine, hStar, hSlash]

theorem Skips.line_append
    {newline ended : Bool}
    {s t : Text}
    (hQuiet : ∀ c ∈ s, isQuiet c = true)
    (hSkips : Skips .line newline t ended) :
    Skips .line newline (s ++ t) ended := by
  induction s with
  | nil => exact hSkips
  | cons c cs ih =>
      have hChar := hQuiet c List.mem_cons_self
      simp only [isQuiet, Bool.and_eq_true,
        Bool.not_eq_true'] at hChar
      exact .lineChar hChar.1.1 (ih fun d hMem =>
        hQuiet d (List.mem_cons_of_mem c hMem))

theorem Skips.block_append
    {newline ended : Bool}
    {s t : Text}
    (hQuiet : ∀ c ∈ s, isQuiet c = true)
    (hSkips : Skips .block newline t ended) :
    Skips .block newline (s ++ t) ended := by
  induction s with
  | nil => exact hSkips
  | cons c cs ih =>
      have hChar := hQuiet c List.mem_cons_self
      simp only [isQuiet, Bool.and_eq_true,
        Bool.not_eq_true', bne_iff_ne] at hChar
      refine .blockChar
        (fun _ hStar => absurd hStar hChar.1.2) ?_
      rw [hChar.1.1, Bool.or_false]
      exact ih fun d hMem =>
        hQuiet d (List.mem_cons_of_mem c hMem)

/- Whether a text ends in what may be part of a word. -/
def EndsPlain
    (t : Text) : Prop :=
  ∃ c, t.getLast? = some c ∧ Text.isPlainPart c = true

theorem EndsPlain.cons
    {c : Char}
    {t : Text}
    (hEnds : EndsPlain (c :: t)) :
    t = [] ∧ Text.isPlainPart c = true ∨ EndsPlain t := by
  rcases hEnds with ⟨d, hLast, hPart⟩
  cases t with
  | nil =>
      rw [List.getLast?_singleton, Option.some.injEq]
        at hLast
      exact Or.inl ⟨rfl, hLast ▸ hPart⟩
  | cons e es =>
      rw [List.getLast?_cons_cons] at hLast
      exact Or.inr ⟨d, hLast, hPart⟩

/- Of a text that ends so, no other character is all. -/
theorem EndsPlain.exists_of_append
    {c : Char}
    {s t u : Text}
    (hEnds : EndsPlain s)
    (hText : s ++ t = c :: u)
    (hChar : Text.isPlainPart c = false) :
    ∃ s', s = c :: s' ∧ EndsPlain s' ∧ s' ++ t = u := by
  cases s with
  | nil =>
      rcases hEnds with ⟨_, hNone, _⟩
      cases hNone
  | cons d ds =>
      rw [List.cons_append, List.cons.injEq] at hText
      rcases hText with ⟨rfl, hRest⟩
      rcases hEnds.cons with ⟨_, hPart⟩ | hLater
      · rw [hChar] at hPart
        cases hPart
      · exact ⟨ds, rfl, hLater, hRest⟩

theorem EndsPlain.exists_of_append_two
    {c d : Char}
    {s t u : Text}
    (hEnds : EndsPlain s)
    (hText : s ++ t = c :: d :: u)
    (hFirst : Text.isPlainPart c = false)
    (hSecond : Text.isPlainPart d = false) :
    ∃ s', s = c :: d :: s' ∧ EndsPlain s' ∧
      s' ++ t = u := by
  rcases hEnds.exists_of_append hText hFirst with
    ⟨r, rfl, hLater, hRest⟩
  rcases hLater.exists_of_append hRest hSecond with
    ⟨s', rfl, hLast, hEnd⟩
  exact ⟨s', rfl, hLast, hEnd⟩

/-
  Words that are skipped stand in comments, and so does
  what is put after them.
-/
theorem Skips.insert
    {within : Within}
    {newline ended : Bool}
    {s more t : Text}
    (hSkips : Skips within newline (s ++ t) ended)
    (hEnds : EndsPlain s)
    (hQuiet : ∀ c ∈ more, isQuiet c = true) :
    Skips within newline (s ++ more ++ t) ended := by
  have hSlash : Text.isPlainPart '/' = false := by decide
  have hStar : Text.isPlainPart '*' = false := by decide
  have hMinus : Text.isPlainPart '-' = false := by decide
  generalize hText : s ++ t = u at hSkips
  induction hSkips generalizing s with
  | done =>
      rcases List.append_eq_nil_iff.mp hText with ⟨rfl, _⟩
      rcases hEnds with ⟨_, hNone, _⟩
      cases hNone
  | blank hBlank _ ih =>
      rcases hEnds.exists_of_append hText
          (not_isPlainPart (Or.inl hBlank)) with
        ⟨s', rfl, hLater, hRest⟩
      exact .blank hBlank (ih hLater hRest)
  | line _ ih =>
      rcases hEnds.exists_of_append_two hText hSlash hSlash
        with ⟨s', rfl, hLater, hRest⟩
      exact .line (ih hLater hRest)
  | block _ ih =>
      rcases hEnds.exists_of_append_two hText hSlash hStar
        with ⟨s', rfl, hLater, hRest⟩
      exact .block (ih hLater hRest)
  | markup _ ih =>
      rcases hEnds.exists_of_append_two hText (by decide)
        (by decide) with ⟨r, rfl, hLater, hRest⟩
      rcases hLater.exists_of_append_two hRest hMinus hMinus
        with ⟨s', rfl, hLast, hEnd⟩
      exact .markup (ih hLast hEnd)
  | markupEnd _ ih =>
      rcases hEnds.exists_of_append hText hMinus with
        ⟨r, rfl, hLater, hRest⟩
      have hLine := ih hLater hRest
      rcases hLater.exists_of_append_two hRest hMinus
        (by decide) with ⟨s', rfl, _, _⟩
      exact .markupEnd hLine
  | @lineChar _ _ c u hChar hRest ih =>
      cases s with
      | nil =>
          rcases hEnds with ⟨_, hNone, _⟩
          cases hNone
      | cons d ds =>
          rw [List.cons_append, List.cons.injEq] at hText
          rcases hText with ⟨rfl, rfl⟩
          rcases hEnds.cons with ⟨rfl, _⟩ | hLater
          · exact .lineChar hChar (hRest.line_append hQuiet)
          · exact .lineChar hChar (ih hLater rfl)
  | lineEnd hEnd _ ih =>
      rcases hEnds.exists_of_append hText
          (not_isPlainPart (Or.inr hEnd)) with
        ⟨s', rfl, hLater, hRest⟩
      exact .lineEnd hEnd (ih hLater hRest)
  | @blockChar _ _ c u hOpen hRest ih =>
      cases s with
      | nil =>
          rcases hEnds with ⟨_, hNone, _⟩
          cases hNone
      | cons d ds =>
          rw [List.cons_append, List.cons.injEq] at hText
          rcases hText with ⟨rfl, rfl⟩
          rcases hEnds.cons with ⟨rfl, hPart⟩ | hLater
          · refine .blockChar ?_ (hRest.block_append hQuiet)
            rintro _ rfl
            exact absurd hPart (by decide)
          · refine .blockChar ?_ (ih hLater rfl)
            intro u hStar hSlash
            cases ds with
            | nil =>
                rcases hLater with ⟨_, hNone, _⟩
                cases hNone
            | cons e es =>
                have hSame : e = '/' :=
                  (List.cons.inj hSlash).1
                exact hOpen (es ++ t) hStar (by
                  rw [hSame, List.cons_append])
  | blockEnd _ ih =>
      rcases hEnds.exists_of_append_two hText hStar hSlash
        with ⟨s', rfl, hLater, hRest⟩
      exact .blockEnd (ih hLater hRest)

end Script

end ComponentLoader
