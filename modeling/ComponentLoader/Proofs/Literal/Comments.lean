import Mathlib.Tactic
import ComponentLoader.Proofs.Literal.Draft
import ComponentLoader.Proofs.Script.Comments

/-
  What becomes of the comments of a literal.

  Comments belong to the entry after them, or to the end
  of the literal.  They are taken from the gaps around the
  entries as they are, and are written before the entries
  that are kept and at the end, each of them once.

  Main declarations:
    * `Literal.CommentsFound`
    * `Literal.commentsFound`
    * `Draft.Part.CarriedAs`
    * `Draft.CarriesComments`
    * `Draft.carriesComments_run`
-/

------------------------------------------------------------
-- Comments That Are Found
------------------------------------------------------------

namespace ComponentLoader

open Script (isGap Frame Gap)
open Script.Gap (Spaced endTrimmed)

/-
  A literal whose comments are found: before each entry
  just those of the gap there, with nothing else but
  blanks, and at the end those of the last gap, up to
  blanks at the end of the last line.
-/
structure Literal.CommentsFound
    (l : Literal)
    (source : Source)
    (frames : List Frame)
    (tail : Text) : Prop where
  leading :
    List.Forall₂
      (fun f comment =>
        isGap comment = true ∧
          Gap.comments comment = Gap.comments f.before)
      frames (l.comments source).leading
  trailing :
    endTrimmed (Gap.comments (l.comments source).trailing) =
      endTrimmed (Gap.comments tail)
  ended :
    isGap ((l.comments source).trailing ++ ['\n']) = true

/-
  The comments of a literal are found if only blanks,
  comments and commas stand around its entries.
-/
theorem Literal.commentsFound
    {l : Literal}
    {source : Source}
    {frames : List Frame}
    {tail : Text}
    (hWritten : l.Written source frames tail)
    (hGaps : ∀ f ∈ frames, Spaced f.before)
    (hTail : Spaced tail) :
    l.CommentsFound source frames tail := by
  rcases hTail.exists_trimmed with ⟨ps, hTrim, hComments⟩
  have hTrailing :
      (l.comments source).trailing =
        Text.trimEnd (Gap.textOf ps) := by
    rw [hWritten.comments_eq, ← hTrim]
    rfl
  constructor
  case leading =>
    rw [hWritten.comments_eq, List.forall₂_map_right_iff,
      List.forall₂_same]
    intro f hMem
    rcases (hGaps f hMem).exists_trimmed with
      ⟨qs, hFirst, hSame⟩
    rw [hFirst, Gap.comments_textOf, hSame]
    exact ⟨Gap.isGap_textOf qs, rfl⟩
  case trailing =>
    have hNone : ∀ c ∈ ([] : Text),
        Text.isBlank c = true := by
      simp
    have hAll := Gap.endTrimmed_comments ps hNone
    rw [List.append_nil] at hAll
    rw [hTrailing, hAll, hComments]
  case ended =>
    rcases hTail.exists_pieces with ⟨qs, hDrop, _⟩
    have hTrailing :
        (l.comments source).trailing =
          Text.trim (Gap.textOf qs) := by
      rw [hWritten.comments_eq, hDrop]
    have hNewline : ∀ c ∈ ['\n'],
        Text.isBlank c = true := by
      intro c hMem
      rw [List.mem_singleton.mp hMem]
      decide
    rw [hTrailing]
    exact Script.isGap_trim_append (Gap.isGap_textOf qs)
      hNewline ⟨'\n', by decide, by decide⟩

------------------------------------------------------------
-- Comments That Are Written
------------------------------------------------------------

namespace Draft

/- The comments around some entries, in order. -/
def gapComments
    (frames : List Frame)
    (tail : Text) : List Text :=
  (frames.flatMap fun f => Gap.comments f.before) ++
    Gap.comments tail

namespace Part

/- The comments before an entry in a literal. -/
def comments
    (written : List Frame) : Part → List Text
  | kept index _ =>
      (written[index]?.map fun f =>
        Gap.comments f.before).getD []
  | added _ => []

/-
  An entry of a draft as it is written: a kept one has its
  text and its comments before it, and an added one has no
  comments.
-/
structure CarriedAs
    (written : List Frame)
    (part : Part)
    (f : Frame) : Prop where
  kept :
    ∀ index entry, part = .kept index entry →
      written[index]?.map Frame.text = some f.text
  added :
    ∀ prop, part = .added prop → f.text = prop.render
  comments :
    Gap.comments f.before = part.comments written

end Part

/-
  A draft that carries the comments of its literal: each
  entry that is kept has its own before it, and the end has
  its own, up to blanks at the end of the last line.  The
  draft has no other comments, and has those of the literal
  without the ones of entries that were removed.
-/
structure CarriesComments
    (d : Draft)
    (source : Source)
    (written : List Frame)
    (writtenTail : Text) : Prop where
  text :
    d.render source =
      Literal.textOf (d.frames source written)
        (d.tail source writtenTail)
  entries :
    List.Forall₂ (Part.CarriedAs written) d.parts
      (d.frames source written)
  tail :
    endTrimmed
        (Gap.comments (d.tail source writtenTail)) =
      endTrimmed (Gap.comments writtenTail)
  all :
    endTrimmed
        (gapComments (d.frames source written)
          (d.tail source writtenTail)) =
      endTrimmed
        (d.parts.flatMap (Part.comments written) ++
          Gap.comments writtenTail)

section

variable {l : Literal}
variable {source : Source}
variable {written : List Frame}
variable {writtenTail : Text}
variable {props : List PropNode}
variable {d : Draft}

/- Before an entry its comments are written. -/
theorem carriedAs_frame
    (hWritten : l.Written source written writtenTail)
    (hGaps : ∀ f ∈ written, Spaced f.before)
    (hOrdered : Ordered l props d)
    {part : Part}
    (hMem : part ∈ d.parts)
    {before : Text}
    (hBefore : '/' ∉ before) :
    part.CarriedAs written (part.frame written before) := by
  rcases hOrdered.cases_of_mem hMem with
    ⟨i, entry, rfl, hEntry⟩ | ⟨prop, rfl, _⟩
  · rcases hWritten.slice_entry hEntry with
      ⟨f, hFrame, _⟩
    have hMade := hGaps f (List.mem_of_getElem? hFrame)
    rcases hMade.exists_trimmed with ⟨ps, hTrim, hComments⟩
    constructor
    case kept =>
      rintro index e ⟨rfl, rfl⟩
      simp [Part.frame, hFrame]
    case added =>
      exact fun prop hPart => absurd hPart (by simp)
    case comments =>
      simp only [Part.frame, Part.comments, commentBefore,
        hFrame]
      rw [Gap.comments_append_left hBefore, hTrim,
        Gap.comments_textOf, hComments]
      rfl
  · constructor
    case kept =>
      exact fun i e hPart => absurd hPart (by simp)
    case added =>
      rintro p ⟨rfl⟩
      rfl
    case comments =>
      have hAll := Gap.comments_append_left hBefore []
      rw [List.append_nil] at hAll
      exact hAll

/- Layouts are blanks and commas. -/
theorem slash_not_mem_layoutOf
    (l : Literal)
    (source : Source) :
    '/' ∉ (layoutOf l source).lead ∧
      '/' ∉ (layoutOf l source).separator ∧
      '/' ∉ (layoutOf l source).beforeTrailing := by
  have hLead : '/' ∉ (layoutOf l source).lead :=
    Gap.not_mem_of_isBlank (isBlank_layoutOf l source).1
  have hBlank : '/' ∉ [' '] := by decide
  refine ⟨hLead, ?_, ?_⟩
  · unfold Layout.separator
    split
    · simp [hLead]
    · decide
  · unfold Layout.beforeTrailing
    split
    · exact hLead
    · exact hBlank

/- The comments at the end are written there. -/
theorem endTrimmed_comments_tail
    (source : Source)
    (hTail : Spaced writtenTail)
    (hSome : d.parts ≠ []) :
    endTrimmed
        (Gap.comments (d.tail source writtenTail)) =
      endTrimmed (Gap.comments writtenTail) := by
  rcases hTail.exists_trimmed with ⟨ps, hTrim, hComments⟩
  have hTrailing :
      Text.trim (dropSeparator .outside writtenTail) =
        Text.trimEnd (Gap.textOf ps) := by
    rw [← hTrim]
    rfl
  have hSlash :=
    (slash_not_mem_layoutOf d.literal source).2.2
  have hShown :
      Gap.comments (d.tail source writtenTail) =
        Gap.comments
          (Text.trimEnd (Gap.textOf ps) ++
            (layoutOf d.literal source).close) := by
    unfold tail renderTrailing
    rw [List.isEmpty_eq_false_iff.mpr hSome, hTrailing]
    simp only [Bool.false_eq_true, if_false]
    split
    · next hNone => rw [List.isEmpty_iff.mp hNone]
    · rw [List.append_assoc,
        Gap.comments_append_left hSlash]
  rw [hShown, ← hComments]
  exact Gap.endTrimmed_comments ps
    fun c hMem => isBlank_of_mem_close hMem

theorem forall₂_carriedAs
    (hWritten : l.Written source written writtenTail)
    (hGaps : ∀ f ∈ written, Spaced f.before)
    (hOrdered : Ordered l props d) :
    List.Forall₂ (Part.CarriedAs written) d.parts
      (d.frames source written) := by
  have hPart :
      ∀ part ∈ d.parts, ∀ before : Text, '/' ∉ before →
        part.CarriedAs written
          (part.frame written before) :=
    fun _ hMem _ hBefore =>
      carriedAs_frame hWritten hGaps hOrdered hMem hBefore
  rcases slash_not_mem_layoutOf d.literal source with
    ⟨hLead, hSeparator, _⟩
  unfold frames
  cases hParts : d.parts with
  | nil => exact List.Forall₂.nil
  | cons part more =>
      rw [hParts] at hPart
      rw [List.forall₂_cons, List.forall₂_map_right_iff,
        List.forall₂_same]
      refine ⟨hPart part List.mem_cons_self _ hLead, ?_⟩
      intro p hMem
      exact hPart p (List.mem_cons_of_mem _ hMem) _
        hSeparator

/- What is written around entries are their comments. -/
theorem flatMap_comments
    {parts : List Part}
    {frames : List Frame}
    (hEntries :
      List.Forall₂ (Part.CarriedAs written) parts frames) :
    (frames.flatMap fun f => Gap.comments f.before) =
      parts.flatMap (Part.comments written) := by
  induction hEntries with
  | nil => rfl
  | cons hFirst _ ih =>
      rw [List.flatMap_cons, List.flatMap_cons, ih,
        hFirst.comments]

/- Comments go where their entries go. -/
theorem Ordered.carriesComments
    (hOrdered : Ordered l props d)
    (hWritten : l.Written source written writtenTail)
    (hGaps : ∀ f ∈ written, Spaced f.before)
    (hTail : Spaced writtenTail)
    (hSome : d.parts ≠ []) :
    d.CarriesComments source written writtenTail := by
  have hEntries := forall₂_carriedAs hWritten hGaps hOrdered
  have hLast := endTrimmed_comments_tail source hTail hSome
  constructor
  case text => exact render_eq hWritten hOrdered
  case entries => exact hEntries
  case tail => exact hLast
  case all =>
    rw [gapComments, flatMap_comments hEntries]
    exact Gap.endTrimmed_append hLast _

end

/-
  The comments of a literal are found, and however it is
  changed, its draft carries them with the entries that
  are left, if there are any.
-/
theorem carriesComments_run
    {l : Literal}
    {source : Source}
    {written : List Frame}
    {writtenTail : Text}
    (hWritten : l.Written source written writtenTail)
    (hGaps : ∀ f ∈ written, Spaced f.before)
    (hTail : Spaced writtenTail) :
    l.CommentsFound source written writtenTail ∧
      ∀ steps : List Step,
        Ordered l (steps.flatMap Step.added)
            (run l steps) ∧
          ((run l steps).parts ≠ [] →
            (run l steps).CarriesComments source written
              writtenTail) := by
  refine ⟨l.commentsFound hWritten hGaps hTail, ?_⟩
  intro steps
  have hOrdered := ordered_run l steps
  exact ⟨hOrdered,
    hOrdered.carriesComments hWritten hGaps hTail⟩

------------------------------------------------------------
-- A Literal With Commas In Comments
------------------------------------------------------------

namespace Sample

/- A script that is a literal with three comments. -/
def commentedText : Text :=
  "(\x7b /* a, b */ a: b, // c\n  d /* e */ \x7d)".toList

def commented : Literal where
  span := { lo := 2, hi := 39 }
  entries :=
    [.pair { lo := 15, hi := 19 } (some ['a'])
      (.name { lo := 18, hi := 19 } ['b']),
    .other { lo := 28, hi := 29 } (some ['d']) .short]

def commentedFrames : List Frame :=
  [{ before := " /* a, b */ ".toList
     text := "a: b".toList },
   { before := ", // c\n  ".toList, text := "d".toList }]

def commentedTail : Text :=
  " /* e */ ".toList

theorem written_commented :
    commented.Written (Source.ofText commentedText)
      commentedFrames commentedTail where
  listed := by
    refine ⟨by decide, ?_, Or.inl (by decide)⟩
    intro f hMem
    rw [List.mem_singleton] at hMem
    rw [hMem]
    exact ⟨[], " // c\n  ".toList, by decide, by decide,
      by decide⟩
  placed :=
    ⟨['('], [')'], by decide, by decide, by decide,
      by decide, trivial⟩

/- A blank between comments. -/
def space : Gap.Piece :=
  .blank ' ' (by decide)

theorem spaced_commented :
    (∀ f ∈ commentedFrames, Spaced f.before) ∧
      Spaced commentedTail := by
  refine ⟨?_, ?_⟩
  · intro f hMem
    rcases List.mem_pair.mp hMem with rfl | rfl
    · exact .plain
        [space, .block " a, b ".toList (by decide), space]
    · exact .comma []
        [space, .line " c".toList
          (by simp [Text.isLineEnd]) false, space, space]
  · exact .plain
      [space, .block " e ".toList (by decide), space]

/- The last entry is removed and another one is added. -/
def commentedSteps : List Step :=
  [.remove ['d'], .add [.keyValue ['f'] (.bool true)]]

end Sample

/- The comment before the entry that is removed is lost. -/
theorem carriesComments_run_sample :
    Sample.commented.CommentsFound
        (Source.ofText Sample.commentedText)
        Sample.commentedFrames Sample.commentedTail ∧
      (run Sample.commented
        Sample.commentedSteps).CarriesComments
          (Source.ofText Sample.commentedText)
          Sample.commentedFrames Sample.commentedTail ∧
      (run Sample.commented Sample.commentedSteps).render
          (Source.ofText Sample.commentedText) =
        "\x7b /* a, b */ a: b, f: true /* e */ \x7d".toList := by
  rcases carriesComments_run Sample.written_commented
      Sample.spaced_commented.1 Sample.spaced_commented.2 with
    ⟨hFound, hRun⟩
  refine ⟨hFound, (hRun _).2 ?_, by decide⟩
  decide

end Draft

end ComponentLoader
