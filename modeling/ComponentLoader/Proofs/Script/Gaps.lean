import Mathlib.Data.List.TakeWhile
import Mathlib.Tactic
import ComponentLoader.Script.Lexer

/-
  What may stand between two tokens of a script: blanks,
  comments up to the end of their line, and comments that
  are closed.

  Gaps are read character by character.  A text is a gap
  if the reader is between tokens at its end, so that none
  of what follows belongs to a comment.

  Main declarations:
    * `Script.Gap.Reader`
    * `Script.isGap`
    * `Script.IsSeparator`
    * `Script.Listed`
    * `Script.isGap_append_iff`
    * `Script.isGap_trim_append`
    * `Script.isSeparator_append_iff`
-/

------------------------------------------------------------
-- Reading Gaps
------------------------------------------------------------

namespace ComponentLoader

namespace Script

/- Where the reader of a gap is. -/
inductive Gap.Reader where
  /- Between tokens. -/
  | between
  /- After a slash that is to open a comment. -/
  | slash
  /- In a comment up to the end of the line. -/
  | line
  /- In a comment that is to be closed. -/
  | block
  /- After a star in such a comment. -/
  | star
  deriving DecidableEq

/- Read a character; none if it belongs to no gap. -/
def Gap.Reader.step
    (r : Reader)
    (c : Char) : Option Reader :=
  match r with
  | between =>
      if c = '/' then some slash
      else if isGapChar c then some between
      else none
  | slash =>
      if c = '/' then some line
      else if c = '*' then some block
      else none
  | line =>
      if Text.isLineEnd c then some between else some line
  | block =>
      if c = '*' then some star else some block
  | star =>
      if c = '/' then some between
      else if c = '*' then some star
      else some block

/- Read a text. -/
def Gap.Reader.run
    (r : Reader)
    (t : Text) : Option Reader :=
  t.foldlM step r

/- Whether a text may stand between two tokens. -/
def isGap
    (t : Text) : Bool :=
  Gap.Reader.between.run t = some .between

/- A comma with what may stand around it. -/
def IsSeparator
    (t : Text) : Prop :=
  ∃ before after,
    t = before ++ ',' :: after ∧
      isGap before = true ∧ isGap after = true

namespace Gap.Reader

@[simp] theorem run_nil
    (r : Reader) :
    r.run [] = some r :=
  rfl

theorem run_cons
    (r : Reader)
    (c : Char)
    (t : Text) :
    r.run (c :: t) = (r.step c).bind fun s => s.run t :=
  rfl

theorem run_append
    (r : Reader)
    (s t : Text) :
    r.run (s ++ t) = (r.run s).bind fun m => m.run t := by
  unfold run
  exact List.foldlM_append

end Gap.Reader

------------------------------------------------------------
-- Gaps In A Row
------------------------------------------------------------

@[simp] theorem isGap_nil :
    isGap [] = true :=
  rfl

theorem isGap_iff
    {t : Text} :
    isGap t = true ↔
      Gap.Reader.between.run t = some .between := by
  unfold isGap
  exact decide_eq_true_iff

/- What follows a gap is a gap exactly if all of it is. -/
theorem isGap_append_iff
    {s t : Text}
    (hGap : isGap s = true) :
    isGap (s ++ t) = true ↔ isGap t = true := by
  rw [isGap_iff] at hGap
  rw [isGap_iff, isGap_iff, Gap.Reader.run_append, hGap]
  rfl

theorem isGap_append
    {s t : Text}
    (hFirst : isGap s = true)
    (hSecond : isGap t = true) :
    isGap (s ++ t) = true :=
  (isGap_append_iff hFirst).mpr hSecond

------------------------------------------------------------
-- Blanks
------------------------------------------------------------

/- A slash may stand in a gap, but only for a comment. -/
theorem not_isGapChar_slash :
    isGapChar '/' = false := by
  decide

theorem isGapChar_of_isBlank
    {c : Char}
    (hBlank : Text.isBlank c = true) :
    isGapChar c = true := by
  simp [isGapChar, hBlank]

/- A blank before a text does not matter. -/
theorem isGap_cons_iff
    {c : Char}
    {t : Text}
    (hChar : isGapChar c = true) :
    isGap (c :: t) = true ↔ isGap t = true := by
  have hSlash : c ≠ '/' := by
    rintro rfl
    rw [not_isGapChar_slash] at hChar
    exact absurd hChar (by decide)
  rw [isGap_iff, isGap_iff, Gap.Reader.run_cons]
  simp [Gap.Reader.step, hSlash, hChar]

/- Blanks are a gap. -/
theorem isGap_of_all
    {t : Text}
    (hChars : ∀ c ∈ t, isGapChar c = true) :
    isGap t = true := by
  induction t with
  | nil => rfl
  | cons c cs ih =>
      rw [isGap_cons_iff (hChars c (by simp))]
      exact ih fun d hMem =>
        hChars d (List.mem_cons_of_mem c hMem)

theorem isGap_leadingBlanks
    (t : Text) :
    isGap (Text.leadingBlanks t) = true := by
  apply isGap_of_all
  intro c hMem
  exact isGapChar_of_isBlank (List.mem_takeWhile_imp hMem)

/- Blanks at the start of a text do not matter. -/
theorem isGap_trimStart_iff
    (t : Text) :
    isGap (Text.trimStart t) = true ↔
      isGap t = true := by
  have hSplit :
      t = Text.leadingBlanks t ++ Text.trimStart t :=
    (List.takeWhile_append_dropWhile).symm
  conv_rhs => rw [hSplit]
  exact (isGap_append_iff (isGap_leadingBlanks t)).symm

/-
  Blanks do not open or close a comment, except that a
  line may end with one.
-/
theorem Gap.Reader.eq_of_run_blanks
    {r : Reader}
    {t : Text}
    (hBlanks : ∀ c ∈ t, Text.isBlank c = true)
    (hRun : r.run t = some .between) :
    r = .between ∨ r = .line := by
  induction t generalizing r with
  | nil =>
      rw [run_nil, Option.some.injEq] at hRun
      exact Or.inl hRun
  | cons c cs ih =>
      have hBlank := hBlanks c (by simp)
      have hSlash : c ≠ '/' := by
        rintro rfl
        exact absurd hBlank (by decide)
      have hStar : c ≠ '*' := by
        rintro rfl
        exact absurd hBlank (by decide)
      have hRest : ∀ {s : Reader},
          s.run cs = some .between →
            s = .between ∨ s = .line :=
        ih fun d hMem =>
          hBlanks d (List.mem_cons_of_mem c hMem)
      rw [run_cons] at hRun
      cases r with
      | between => exact Or.inl rfl
      | line => exact Or.inr rfl
      | slash => simp [step, hSlash, hStar] at hRun
      | block =>
          have hBlock : block.run cs = some between := by
            simpa [step, hStar] using hRun
          exact absurd (hRest hBlock) (by simp)
      | star =>
          have hBlock : block.run cs = some between := by
            simpa [step, hSlash, hStar] using hRun
          exact absurd (hRest hBlock) (by simp)

/- Blanks with a line end close a comment up to there. -/
theorem Gap.Reader.run_line_of_lineEnd
    {t : Text}
    (hBlanks : ∀ c ∈ t, Text.isBlank c = true)
    (hEnd : ∃ c ∈ t, Text.isLineEnd c = true) :
    line.run t = some between := by
  induction t with
  | nil => exact absurd hEnd (by simp)
  | cons c cs ih =>
      have hRest : ∀ d ∈ cs, Text.isBlank d = true :=
        fun d hMem =>
          hBlanks d (List.mem_cons_of_mem c hMem)
      rw [run_cons]
      by_cases hLine : Text.isLineEnd c = true
      · have hGap : isGap cs = true :=
          isGap_of_all fun d hMem =>
            isGapChar_of_isBlank (hRest d hMem)
        simpa [step, hLine] using isGap_iff.mp hGap
      · have hLater : ∃ d ∈ cs, Text.isLineEnd d = true := by
          rcases hEnd with ⟨d, hMem, hLineEnd⟩
          rcases List.mem_cons.mp hMem with rfl | hMem
          · exact absurd hLineEnd hLine
          · exact ⟨d, hMem, hLineEnd⟩
        simpa [step, hLine] using ih hRest hLater

/- A gap may be trimmed if the line ends after it. -/
theorem isGap_trim_append
    {t close : Text}
    (hGap : isGap t = true)
    (hBlanks : ∀ c ∈ close, Text.isBlank c = true)
    (hEnd : ∃ c ∈ close, Text.isLineEnd c = true) :
    isGap (Text.trim t ++ close) = true := by
  have hClose : isGap close = true :=
    isGap_of_all fun c hMem =>
      isGapChar_of_isBlank (hBlanks c hMem)
  have hStart := (isGap_trimStart_iff t).mpr hGap
  have hSplit :
      Text.trimStart t =
        Text.trim t ++
          Text.trailingBlanks (Text.trimStart t) := by
    unfold Text.trim Text.trimEnd Text.trailingBlanks
    rw [← List.reverse_append,
      List.takeWhile_append_dropWhile,
      List.reverse_reverse]
  rw [hSplit, isGap_iff, Gap.Reader.run_append,
    Option.bind_eq_some_iff] at hStart
  rcases hStart with ⟨r, hTrim, hRest⟩
  have hReader := Gap.Reader.eq_of_run_blanks (by
    intro c hMem
    unfold Text.trailingBlanks at hMem
    rw [List.mem_reverse] at hMem
    exact List.mem_takeWhile_imp hMem) hRest
  rw [isGap_iff, Gap.Reader.run_append, hTrim]
  rcases hReader with rfl | rfl
  · exact isGap_iff.mp hClose
  · exact Gap.Reader.run_line_of_lineEnd hBlanks hEnd

------------------------------------------------------------
-- Separators
------------------------------------------------------------

/- No gap goes on with a comma. -/
theorem not_isGap_comma
    {s t : Text}
    (hGap : isGap s = true) :
    isGap (s ++ ',' :: t) = false := by
  have hStep : Gap.Reader.between.step ',' = none := by
    decide
  by_contra hOther
  rw [Bool.not_eq_false, isGap_append_iff hGap, isGap_iff,
    Gap.Reader.run_cons, hStep] at hOther
  exact absurd hOther (by simp)

/- A separator may start with one gap more. -/
theorem isSeparator_append_iff
    {s t : Text}
    (hGap : isGap s = true) :
    IsSeparator (s ++ t) ↔ IsSeparator t := by
  constructor
  · rintro ⟨before, after, hText, hBefore, hAfter⟩
    rcases List.append_eq_append_iff.mp hText with
      ⟨more, hMore, hRest⟩ | ⟨more, hMore, hRest⟩
    · rw [hMore, isGap_append_iff hGap] at hBefore
      exact ⟨more, after, hRest, hBefore, hAfter⟩
    · cases more with
      | nil =>
          exact ⟨[], after, by simpa using hRest.symm,
            rfl, hAfter⟩
      | cons c cs =>
          -- the comma would stand inside of the gap
          rw [List.cons_append, List.cons.injEq] at hRest
          rcases hRest with ⟨rfl, _⟩
          rw [hMore, not_isGap_comma hBefore] at hGap
          exact absurd hGap (by decide)
  · rintro ⟨before, after, rfl, hBefore, hAfter⟩
    refine ⟨s ++ before, after, by simp, ?_, hAfter⟩
    exact isGap_append hGap hBefore

/- What follows a comma is to be a gap. -/
theorem isSeparator_comma_iff
    (t : Text) :
    IsSeparator (',' :: t) ↔ isGap t = true := by
  constructor
  · rintro ⟨before, after, hText, hBefore, hAfter⟩
    cases before with
    | nil =>
        rw [List.nil_append, List.cons.injEq] at hText
        rw [hText.2]
        exact hAfter
    | cons c cs =>
        rw [List.cons_append, List.cons.injEq] at hText
        rcases hText with ⟨rfl, _⟩
        have hComma := not_isGap_comma (s := []) (t := cs) rfl
        rw [List.nil_append, hBefore] at hComma
        exact absurd hComma (by decide)
  · intro hGap
    exact ⟨[], t, rfl, rfl, hGap⟩

------------------------------------------------------------
-- Entries And The Gaps Around Them
------------------------------------------------------------

/- An entry, and what stands before it. -/
structure Frame where
  before : Text
  text : Text

/- Entries in order, and what stands after the last. -/
def Frame.weave : List Frame → Text → Text
  | [], tail => tail
  | f :: fs, tail => f.before ++ f.text ++ weave fs tail

theorem Frame.weave_eq_append
    (frames : List Frame)
    (tail : Text) :
    weave frames tail = weave frames [] ++ tail := by
  induction frames with
  | nil => rfl
  | cons f fs ih =>
      rw [weave, weave, ih]
      simp only [List.append_assoc]

/- What may stand after the last entry. -/
def IsTail
    (t : Text) : Prop :=
  isGap t = true ∨ IsSeparator t

/-
  Whether entries are listed as between two braces: one
  comma between two of them, and at most one at the end.
  None of them starts inside of a comment, and nor does
  what comes after the list.
-/
def Listed : List Frame → Text → Prop
  | [], tail => isGap tail = true
  | f :: fs, tail =>
      isGap f.before = true ∧
        (∀ g ∈ fs, IsSeparator g.before) ∧ IsTail tail

theorem isTail_append_iff
    {s t : Text}
    (hGap : isGap s = true) :
    IsTail (s ++ t) ↔ IsTail t := by
  unfold IsTail
  rw [isGap_append_iff hGap, isSeparator_append_iff hGap]

/- Before an entry is a gap, maybe with a comma in it. -/
theorem Listed.isTail_before
    {frames : List Frame}
    {tail : Text}
    (hListed : Listed frames tail)
    {f : Frame}
    (hMem : f ∈ frames) :
    IsTail f.before := by
  cases frames with
  | nil => exact absurd hMem (by simp)
  | cons first rest =>
      rcases hListed with ⟨hFirst, hRest, _⟩
      rcases List.mem_cons.mp hMem with rfl | hMem
      · exact Or.inl hFirst
      · exact Or.inr (hRest f hMem)

theorem Listed.isTail
    {frames : List Frame}
    {tail : Text}
    (hListed : Listed frames tail) :
    IsTail tail := by
  cases frames with
  | nil => exact Or.inl hListed
  | cons first rest => exact hListed.2.2

end Script

end ComponentLoader
