import Mathlib.Tactic
import ComponentLoader.Literal.Draft
import ComponentLoader.Proofs.Script.Gaps
import ComponentLoader.Proofs.Source

/-
  Literals as they are written in a source: entries listed
  between braces, with spans that say where.  Of such a
  literal the braces, the entries and the comments are
  found where they were written.

  Main declarations:
    * `Literal.Written`
    * `Literal.Written.slice_entry`
    * `Literal.Written.comments_eq`
    * `Literal.isGap_lead`
    * `Draft.isGap_dropSeparator`
-/

------------------------------------------------------------
-- Written Literals
------------------------------------------------------------

namespace ComponentLoader

open Script (isGap Frame Listed)

/- Entries with the spans of frames after a text. -/
def Literal.Placed
    (source : Source) :
    Text → List Frame → List Script.Entry → Prop
  | _, [], [] => True
  | before, f :: fs, e :: es =>
      e.span = source.spanOf (before ++ f.before) f.text ∧
        Placed source (before ++ f.before ++ f.text) fs es
  | _, _, _ => False

/- The text of a literal of some frames. -/
def Literal.textOf
    (frames : List Frame)
    (tail : Text) : Text :=
  '{' :: Frame.weave frames tail ++ ['}']

/-
  A literal that is written in a source: its span is that
  of a list of entries in braces, and so are theirs.
-/
structure Literal.Written
    (l : Literal)
    (source : Source)
    (frames : List Frame)
    (tail : Text) : Prop where
  listed : Listed frames tail
  placed :
    ∃ before after,
      source.text =
          before ++ Literal.textOf frames tail ++ after ∧
        l.span =
          source.spanOf before
            (Literal.textOf frames tail) ∧
        Literal.Placed source (before ++ ['{'])
          frames l.entries

namespace Literal

/- There are as many entries as frames. -/
theorem Placed.length_eq
    {source : Source}
    {before : Text}
    {frames : List Frame}
    {entries : List Script.Entry}
    (hPlaced : Placed source before frames entries) :
    frames.length = entries.length := by
  induction frames generalizing before entries with
  | nil =>
      cases entries with
      | nil => rfl
      | cons e es => exact False.elim hPlaced
  | cons f fs ih =>
      cases entries with
      | nil => exact False.elim hPlaced
      | cons e es =>
          rw [List.length_cons, List.length_cons,
            ih hPlaced.2]

/- An entry is found where its frame is. -/
theorem Placed.slice_entry
    {source : Source}
    {before tail after : Text}
    {frames : List Frame}
    {entries : List Script.Entry}
    (hPlaced : Placed source before frames entries)
    (hText :
      source.text =
        before ++ Frame.weave frames tail ++ after)
    {i : Nat}
    {entry : Script.Entry}
    (hEntry : entries[i]? = some entry) :
    ∃ f, frames[i]? = some f ∧
      source.slice entry.span = f.text := by
  induction frames generalizing before entries i with
  | nil =>
      cases entries with
      | nil => simp at hEntry
      | cons e es => exact False.elim hPlaced
  | cons f fs ih =>
      cases entries with
      | nil => exact False.elim hPlaced
      | cons e es =>
          rw [Frame.weave] at hText
          cases i with
          | zero =>
              simp only [List.getElem?_cons_zero,
                Option.some.injEq] at hEntry
              subst hEntry
              refine ⟨f, rfl, ?_⟩
              rw [hPlaced.1]
              apply Source.slice_spanOf
              rw [hText]
              simp only [List.append_assoc]
              rfl
          | succ i =>
              simp only [List.getElem?_cons_succ] at hEntry ⊢
              refine ih hPlaced.2 ?_ hEntry
              rw [hText]
              simp only [List.append_assoc]

/- The comments before entries are in the gaps there. -/
theorem Placed.leadingFrom_eq
    {source : Source}
    {before tail after : Text}
    {frames : List Frame}
    {entries : List Script.Entry}
    (hPlaced : Placed source before frames entries)
    (hText :
      source.text =
        before ++ Frame.weave frames tail ++ after) :
    leadingFrom source (Text.size before) entries =
      (frames.map fun f =>
          Text.trimStart
            (Draft.dropSeparator .outside f.before),
        Text.size (before ++ Frame.weave frames [])) := by
  induction frames generalizing before entries with
  | nil =>
      cases entries with
      | nil => simp [leadingFrom, Frame.weave]
      | cons e es => exact False.elim hPlaced
  | cons f fs ih =>
      cases entries with
      | nil => exact False.elim hPlaced
      | cons e es =>
          rw [Frame.weave] at hText
          have hEntry :
              source.text =
                before ++ f.before ++ f.text ++
                  (Frame.weave fs tail ++ after) := by
            rw [hText]
            simp only [List.append_assoc]
          have hRange :
              source.range e.span =
                (Text.size (before ++ f.before),
                  Text.size
                    (before ++ f.before ++ f.text)) := by
            rw [hPlaced.1, Source.range_spanOf hEntry,
              Text.size_append (before ++ f.before)]
          have hGap :
              source.text.slice? (Text.size before)
                  (Text.size (before ++ f.before)) =
                some f.before := by
            rw [hEntry, List.append_assoc _ f.text,
              Text.size_append]
            exact Text.slice?_append _ _ _
          have hRest := ih hPlaced.2 (by
            rw [hEntry]
            simp only [List.append_assoc])
          have hMax :
              max
                  (Text.size
                    (before ++ f.before ++ f.text))
                  (Text.size before) =
                Text.size
                  (before ++ f.before ++ f.text) := by
            simp only [Text.size_append]
            omega
          rw [leadingFrom]
          simp only [hRange, gap, hGap, hMax, hRest]
          simp only [Option.getD_some, List.map_cons,
            Frame.weave, List.append_assoc]

/- A brace takes one byte. -/
theorem size_textOf
    (frames : List Frame)
    (tail : Text) :
    Text.size (textOf frames tail) =
      Text.size (Frame.weave frames []) +
        Text.size tail + 2 := by
  have hOpen : '{'.utf8Size = 1 := by decide
  have hClose : '}'.utf8Size = 1 := by decide
  rw [textOf, Frame.weave_eq_append]
  simp only [Text.size, Text.size_append, List.cons_append,
    hOpen, hClose]
  omega

namespace Written

variable {l : Literal}
variable {source : Source}
variable {frames : List Frame}
variable {tail : Text}

theorem length_eq
    (hWritten : l.Written source frames tail) :
    frames.length = l.entries.length := by
  rcases hWritten.placed with ⟨_, _, _, _, hPlaced⟩
  exact hPlaced.length_eq

/- An entry is found where its frame is. -/
theorem slice_entry
    (hWritten : l.Written source frames tail)
    {i : Nat}
    {entry : Script.Entry}
    (hEntry : l.entries[i]? = some entry) :
    ∃ f, frames[i]? = some f ∧
      source.slice entry.span = f.text := by
  rcases hWritten.placed with
    ⟨before, after, hText, _, hPlaced⟩
  have hWoven : source.text =
      before ++ ['{'] ++ Frame.weave frames tail ++
        '}' :: after := by
    rw [hText]
    simp [textOf]
  exact hPlaced.slice_entry hWoven hEntry

/-
  The comments of a literal are what the separators leave
  of the gaps, without the blanks before them.
-/
theorem comments_eq
    (hWritten : l.Written source frames tail) :
    l.comments source =
      { leading := frames.map fun f =>
          Text.trimStart
            (Draft.dropSeparator .outside f.before)
        trailing :=
          Text.trim
            (Draft.dropSeparator .outside tail) } := by
  rcases hWritten.placed with
    ⟨before, after, hText, hSpan, hPlaced⟩
  have hOpen : '{'.utf8Size = 1 := by decide
  have hInner :
      source.text =
        before ++ ['{'] ++ Frame.weave frames tail ++
          '}' :: after := by
    rw [hText]
    simp [textOf]
  have hLeading := hPlaced.leadingFrom_eq hInner
  have hStop :
      Text.size before +
          Text.size (textOf frames tail) - 1 =
        Text.size
            (before ++ ['{'] ++ Frame.weave frames []) +
          Text.size tail := by
    simp only [size_textOf, Text.size_append, Text.size,
      hOpen]
    omega
  have hTail :
      source.text.slice?
          (Text.size
            (before ++ ['{'] ++ Frame.weave frames []))
          (Text.size before +
            Text.size (textOf frames tail) - 1) =
        some tail := by
    rw [hStop, hInner, Frame.weave_eq_append frames tail,
      ← List.append_assoc]
    exact Text.slice?_append _ _ _
  have hFirst :
      min (Text.size before + 1)
          (Text.size before +
            Text.size (textOf frames tail)) =
        Text.size (before ++ ['{']) := by
    simp only [size_textOf, Text.size_append, Text.size,
      hOpen]
    omega
  unfold comments
  rw [hSpan, Source.range_spanOf hText]
  simp only [hFirst, hLeading, gap, hTail,
    Option.getD_some]

end Written

/- The blanks after the first brace are a gap. -/
theorem isGap_lead
    (l : Literal)
    (source : Source) :
    isGap (Draft.layoutOf l source).lead = true := by
  unfold Draft.layoutOf
  simp only
  split
  · decide
  · exact Script.isGap_leadingBlanks _

end Literal

------------------------------------------------------------
-- Separators Between Newlines
------------------------------------------------------------

namespace Draft

open Script.Gap (Reader)

/- Whether all lines that end in a text end in newlines. -/
def HasNewlines
    (t : Text) : Prop :=
  ∀ c ∈ t, Text.isLineEnd c = true → c = '\n'

instance
    (t : Text) :
    Decidable (HasNewlines t) :=
  List.decidableBAll
    (fun c => Text.isLineEnd c = true → c = '\n') t

theorem HasNewlines.tail
    {c : Char}
    {t : Text}
    (hLines : HasNewlines (c :: t)) :
    HasNewlines t :=
  fun d hMem => hLines d (List.mem_cons_of_mem c hMem)

/- Where a reader of gaps is that is inside of a comment. -/
def readerOf : Script.Within → Reader
  | .outside => .between
  | .line => .line
  | .block => .block

/- A star that does not close a comment does not matter. -/
theorem run_block_of_run_star
    {t : Text}
    (hSlash : ∀ cs, t ≠ '/' :: cs)
    (hRun : Reader.star.run t = some .between) :
    Reader.block.run t = some .between := by
  cases t with
  | nil => exact absurd hRun (by simp)
  | cons c cs =>
      have hNext : c ≠ '/' := by
        rintro rfl
        exact hSlash cs rfl
      rw [Reader.run_cons] at hRun ⊢
      simpa [Reader.step, hNext] using hRun

/-
  A gap is passed over in search of a separator, if its
  lines end in newlines.
-/
theorem dropSeparator_append
    {w : Script.Within}
    {t : Text}
    (rest : Text)
    (hLines : HasNewlines t)
    (hRun : (readerOf w).run t = some .between) :
    dropSeparator w (t ++ rest) =
      t ++ dropSeparator .outside rest := by
  fun_induction dropSeparator w t with
  | case1 w =>
      cases w with
      | outside => rfl
      | line => exact absurd hRun (by simp [readerOf])
      | block => exact absurd hRun (by simp [readerOf])
  | case2 cs =>
      have hStep : Reader.between.step ',' = none := by
        decide
      rw [readerOf, Reader.run_cons, hStep] at hRun
      exact absurd hRun (by simp)
  | case3 cs ih =>
      have hRest := ih hLines.tail.tail (by
        simpa [readerOf, Reader.run_cons, Reader.step]
          using hRun)
      simp [dropSeparator, hRest]
  | case4 cs ih =>
      have hRest := ih hLines.tail.tail (by
        simpa [readerOf, Reader.run_cons, Reader.step]
          using hRun)
      simp [dropSeparator, hRest]
  | case5 c cs hNext hLine hBlock ih =>
      rw [readerOf, Reader.run_cons] at hRun
      have hSlash : c ≠ '/' := by
        rintro rfl
        cases cs with
        | nil => exact absurd hRun (by decide)
        | cons d ds =>
            have hFirst : d ≠ '/' := by
              rintro rfl
              exact hLine ds rfl rfl
            have hSecond : d ≠ '*' := by
              rintro rfl
              exact hBlock ds rfl rfl
            simp [Reader.step, Reader.run_cons, hFirst,
              hSecond] at hRun
      have hRest := ih hLines.tail (by
        by_cases hChar : Script.isGapChar c = true
        · simpa [readerOf, Reader.step, hSlash, hChar]
            using hRun
        · simp [Reader.step, hSlash, hChar] at hRun)
      simp [dropSeparator, hSlash, hRest]
  | case6 cs ih =>
      have hRest := ih hLines.tail (by
        simpa [readerOf, Reader.run_cons, Reader.step,
          Text.isLineEnd] using hRun)
      simp [dropSeparator, hRest]
  | case7 c cs hNext ih =>
      have hEnd : Text.isLineEnd c = false := by
        by_contra hOther
        rw [Bool.not_eq_false] at hOther
        exact hNext (hLines c (by simp) hOther)
      have hRest := ih hLines.tail (by
        simpa [readerOf, Reader.run_cons, Reader.step,
          hEnd] using hRun)
      simp [dropSeparator, hRest]
  | case8 cs ih =>
      have hRest := ih hLines.tail.tail (by
        simpa [readerOf, Reader.run_cons, Reader.step]
          using hRun)
      simp [dropSeparator, hRest]
  | case9 c cs hNext ih =>
      rw [readerOf, Reader.run_cons] at hRun
      have hBlock : Reader.block.run cs = some .between := by
        by_cases hStar : c = '*'
        · subst hStar
          exact run_block_of_run_star
            (fun ds hEq => hNext ds rfl hEq) hRun
        · simpa [Reader.step, hStar] using hRun
      have hRest := ih hLines.tail hBlock
      cases cs with
      | nil => exact absurd hBlock (by simp)
      | cons d ds =>
          have hClose : c = '*' → d ≠ '/' := by
            rintro hStar rfl
            exact hNext ds hStar rfl
          simp only [List.cons_append] at hRest ⊢
          rw [dropSeparator, hRest]
          intro ds hStar hEq
          rw [List.cons.injEq] at hEq
          exact hClose hStar hEq.1

/- A gap between newlines is left as it is. -/
theorem dropSeparator_of_isGap
    {t : Text}
    (hLines : HasNewlines t)
    (hGap : isGap t = true) :
    dropSeparator .outside t = t := by
  have hRun := Script.isGap_iff.mp hGap
  have hDrop := dropSeparator_append (w := .outside) []
    hLines hRun
  simpa [dropSeparator] using hDrop

/-
  Of what may stand between entries only the comma is
  dropped, if all lines end in newlines.
-/
theorem isGap_dropSeparator
    {t : Text}
    (hLines : HasNewlines t)
    (hTail : Script.IsTail t) :
    isGap (dropSeparator .outside t) = true := by
  rcases hTail with hGap |
    ⟨before, after, rfl, hBefore, hAfter⟩
  · rw [dropSeparator_of_isGap hLines hGap]
    exact hGap
  · have hFirst : HasNewlines before := fun c hMem =>
      hLines c (List.mem_append_left _ hMem)
    have hDrop := dropSeparator_append (w := .outside)
      (',' :: after) hFirst (Script.isGap_iff.mp hBefore)
    rw [hDrop, dropSeparator]
    exact Script.isGap_append hBefore hAfter

end Draft

end ComponentLoader
