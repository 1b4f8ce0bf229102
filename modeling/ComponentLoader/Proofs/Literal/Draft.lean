import Mathlib.Tactic
import ComponentLoader.Proofs.Component.Spelling
import ComponentLoader.Proofs.Literal.Written

/-
  What a draft of a written literal is written as.

  A draft has the entries of the literal that were kept
  and then those that were added, each in order.  Written,
  it is a list of just these entries in braces, unless it
  takes a comment for something else.  That happens in two
  ways, and `Draft.Readable` says exactly when:
    * a comment goes up to the end of its line, and what
      is written after it stands on that line;
    * a line ends with another character than a newline,
      so that the comma after a comment is not found.

  Main declarations:
    * `Draft.Step`
    * `Draft.Ordered`
    * `Draft.ordered_run`
    * `Draft.Readable`
    * `Draft.ReadsBack`
    * `Draft.readsBack_run_iff`
-/

------------------------------------------------------------
-- Steps
------------------------------------------------------------

namespace ComponentLoader

open Script (isGap IsSeparator IsTail Frame Listed)

namespace Draft

/- A change of a draft. -/
inductive Step where
  | remove (name : Text)
  | add (props : List PropNode)
  | replace (name : Text) (prop : PropNode)

/- The draft after a change. -/
def Step.apply
    (d : Draft) : Step → Draft
  | remove name => d.remove name
  | add props => d.addAll props
  | replace name prop => d.replace name prop

/- The entries that a change adds. -/
def Step.added : Step → List PropNode
  | remove _ => []
  | add props => props
  | replace _ prop => [prop]

/- The draft of a literal after changes. -/
def run
    (l : Literal)
    (steps : List Step) : Draft :=
  steps.foldl Step.apply (ofLiteral l)

------------------------------------------------------------
-- The Order Of Entries
------------------------------------------------------------

/-
  A draft of a literal whose entries are some of those of
  the literal and then some of those added, in order.
-/
structure Ordered
    (l : Literal)
    (props : List PropNode)
    (d : Draft) : Prop where
  literal : d.literal = l
  parts :
    ∃ (kept : List Part) (added : List PropNode),
      d.parts = kept ++ added.map Part.added ∧
        kept.Sublist (keptFrom 0 l.entries) ∧
        added.Sublist props

theorem ordered_ofLiteral
    (l : Literal) :
    Ordered l [] (ofLiteral l) where
  literal := rfl
  parts := ⟨keptFrom 0 l.entries, [], by simp [ofLiteral],
    List.Sublist.refl _, List.Sublist.refl _⟩

/- Removing an entry keeps the order of the others. -/
theorem Ordered.remove
    {l : Literal}
    {props : List PropNode}
    {d : Draft}
    (hOrdered : Ordered l props d)
    (name : Text) :
    Ordered l props (d.remove name) := by
  rcases hOrdered.parts with
    ⟨kept, added, hParts, hKept, hAdded⟩
  unfold Draft.remove
  split
  · refine ⟨hOrdered.literal, ?_⟩
    simp only [hParts, List.eraseP_append]
    split
    · exact ⟨_, added, rfl,
        List.eraseP_sublist.trans hKept, hAdded⟩
    · rw [List.eraseP_map]
      exact ⟨kept, _, rfl, hKept,
        List.eraseP_sublist.trans hAdded⟩
  · exact hOrdered

/- An added entry is the last. -/
theorem Ordered.add
    {l : Literal}
    {props : List PropNode}
    {d : Draft}
    (hOrdered : Ordered l props d)
    (prop : PropNode) :
    Ordered l (props ++ [prop]) (d.add prop) := by
  rcases hOrdered.parts with
    ⟨kept, added, hParts, hKept, hAdded⟩
  refine ⟨hOrdered.literal, kept, added ++ [prop], ?_,
    hKept, hAdded.append (List.Sublist.refl _)⟩
  simp [Draft.add, hParts]

theorem Ordered.addAll
    {l : Literal}
    {props : List PropNode}
    {d : Draft}
    (hOrdered : Ordered l props d)
    (more : List PropNode) :
    Ordered l (props ++ more) (d.addAll more) := by
  induction more generalizing props d with
  | nil => simpa [Draft.addAll] using hOrdered
  | cons prop rest ih =>
      have hRest := ih (hOrdered.add prop)
      simpa [Draft.addAll] using hRest

theorem Ordered.step
    {l : Literal}
    {props : List PropNode}
    {d : Draft}
    (hOrdered : Ordered l props d)
    (s : Step) :
    Ordered l (props ++ s.added) (s.apply d) := by
  cases s with
  | remove name =>
      rw [Step.added, List.append_nil]
      exact hOrdered.remove name
  | add more => exact hOrdered.addAll more
  | replace name prop =>
      exact (hOrdered.remove name).add prop

/- Changes keep the order of entries. -/
theorem ordered_run
    (l : Literal)
    (steps : List Step) :
    Ordered l (steps.flatMap Step.added) (run l steps) := by
  have hAll :
      ∀ props d, Ordered l props d →
        Ordered l (props ++ steps.flatMap Step.added)
          (steps.foldl Step.apply d) := by
    induction steps with
    | nil =>
        intro props d hOrdered
        simpa using hOrdered
    | cons s rest ih =>
        intro props d hOrdered
        have hRest := ih _ _ (hOrdered.step s)
        simpa using hRest
  exact hAll [] _ (ordered_ofLiteral l)

/- A kept entry is known by its index. -/
theorem eq_kept_of_mem_keptFrom
    {n : Nat}
    {part : Part}
    {entries : List Script.Entry}
    (hMem : part ∈ keptFrom n entries) :
    ∃ k entry, part = .kept (n + k) entry ∧
      entries[k]? = some entry := by
  induction entries generalizing n with
  | nil => exact absurd hMem (by simp [keptFrom])
  | cons e es ih =>
      rw [keptFrom, List.mem_cons] at hMem
      rcases hMem with rfl | hMem
      · exact ⟨0, e, rfl, rfl⟩
      · rcases ih hMem with ⟨k, entry, hPart, hEntry⟩
        refine ⟨k + 1, entry, ?_, by simpa using hEntry⟩
        rw [hPart, Nat.add_right_comm, Nat.add_assoc]

/- An entry of a draft is of the literal or was added. -/
theorem Ordered.cases_of_mem
    {l : Literal}
    {props : List PropNode}
    {d : Draft}
    (hOrdered : Ordered l props d)
    {part : Part}
    (hMem : part ∈ d.parts) :
    (∃ i entry, part = .kept i entry ∧
        l.entries[i]? = some entry) ∨
      ∃ prop, part = .added prop ∧ prop ∈ props := by
  rcases hOrdered.parts with
    ⟨kept, added, hParts, hKept, hAdded⟩
  rw [hParts, List.mem_append, List.mem_map] at hMem
  rcases hMem with hMem | ⟨prop, hMem, rfl⟩
  · rcases eq_kept_of_mem_keptFrom (hKept.subset hMem) with
      ⟨k, entry, hPart, hEntry⟩
    rw [Nat.zero_add] at hPart
    exact Or.inl ⟨k, entry, hPart, hEntry⟩
  · exact Or.inr ⟨prop, rfl, hAdded.subset hMem⟩

------------------------------------------------------------
-- The Frames Of A Draft
------------------------------------------------------------

/- What the separator leaves of the gap before an entry. -/
def commentBefore
    (written : List Frame)
    (index : Nat) : Text :=
  match written[index]? with
  | some f => dropSeparator .outside f.before
  | none => []

/- An entry as it is written after a text. -/
def Part.frame
    (written : List Frame)
    (before : Text) : Part → Frame
  | kept index _ =>
      { before :=
          before ++
            Text.trimStart (commentBefore written index)
        text := (written[index]?.map Frame.text).getD [] }
  | added prop =>
      { before := before, text := prop.render }

/- The entries of a draft as they are written. -/
def frames
    (d : Draft)
    (source : Source)
    (written : List Frame) : List Frame :=
  let layout := layoutOf d.literal source
  match d.parts with
  | [] => []
  | part :: rest =>
      part.frame written layout.lead ::
        rest.map (Part.frame written layout.separator)

/- What is written after the last entry. -/
def tail
    (d : Draft)
    (source : Source)
    (writtenTail : Text) : Text :=
  let layout := layoutOf d.literal source
  if d.parts.isEmpty then
    []
  else
    renderTrailing layout
        (Text.trim (dropSeparator .outside writtenTail)) ++
      layout.close

section Rendering

variable {l : Literal}
variable {source : Source}
variable {written : List Frame}
variable {writtenTail : Text}
variable {props : List PropNode}
variable {d : Draft}

/- An entry is written as its frame says. -/
theorem renderPart_eq
    (hWritten : l.Written source written writtenTail)
    (hOrdered : Ordered l props d)
    {part : Part}
    (hMem : part ∈ d.parts)
    (before : Text) :
    before ++ renderPart source (l.comments source) part =
      (part.frame written before).before ++
        (part.frame written before).text := by
  rcases hOrdered.cases_of_mem hMem with
    ⟨i, entry, rfl, hEntry⟩ | ⟨prop, rfl, _⟩
  · rcases hWritten.slice_entry hEntry with
      ⟨f, hFrame, hSlice⟩
    simp [renderPart, Part.frame, commentBefore, hFrame,
      hSlice, hWritten.comments_eq]
  · rfl

/- Entries with separators are woven from their frames. -/
theorem join_eq_weave
    {shown : Part → Text}
    {part : Part}
    {more : List Part}
    (hShown : ∀ p ∈ part :: more, ∀ before,
      before ++ shown p =
        (p.frame written before).before ++
          (p.frame written before).text)
    (sep first rest : Text) :
    first ++ Text.join sep ((part :: more).map shown) ++
        rest =
      Frame.weave
        (part.frame written first ::
          more.map (Part.frame written sep)) rest := by
  induction more generalizing part first with
  | nil =>
      simp only [List.map_cons, List.map_nil, Text.join,
        Frame.weave]
      rw [← hShown part (by simp) first]
  | cons next others ih =>
      have hOthers : ∀ p ∈ next :: others, ∀ before,
          before ++ shown p =
            (p.frame written before).before ++
              (p.frame written before).text :=
        fun p hMem =>
          hShown p (List.mem_cons_of_mem part hMem)
      have hRest := ih hOthers sep
      simp only [List.map_cons, Text.join,
        Frame.weave] at hRest ⊢
      rw [← hShown part (by simp) first, ← hRest]
      simp only [List.append_assoc]

/- A draft is written as its frames, in braces. -/
theorem render_eq
    (hWritten : l.Written source written writtenTail)
    (hOrdered : Ordered l props d) :
    d.render source =
      Literal.textOf (d.frames source written)
        (d.tail source writtenTail) := by
  have hLiteral : d.literal = l := hOrdered.literal
  have hTrailing :
      (l.comments source).trailing =
        Text.trim (dropSeparator .outside writtenTail) := by
    rw [hWritten.comments_eq]
  unfold render frames tail Literal.textOf
  cases hParts : d.parts with
  | nil => rfl
  | cons part more =>
      have hShown : ∀ p ∈ part :: more, ∀ before,
          before ++
              renderPart source (l.comments source) p =
            (p.frame written before).before ++
              (p.frame written before).text := by
        intro p hMem before
        exact renderPart_eq hWritten hOrdered
          (hParts ▸ hMem) before
      simp only [List.isEmpty_cons, hLiteral]
      rw [← join_eq_weave hShown]
      simp [hTrailing]

end Rendering

------------------------------------------------------------
-- Readable Drafts
------------------------------------------------------------

/-
  Whether a draft can be read back: no gap before a kept
  entry holds on to a comma or a comment, what is written
  at the end leaves the brace outside of comments, and the
  new entries have no misplaced holes.
-/
structure Readable
    (d : Draft)
    (source : Source)
    (written : List Frame)
    (writtenTail : Text) : Prop where
  leading :
    ∀ i entry, .kept i entry ∈ d.parts →
      isGap (commentBefore written i) = true
  trailing :
    d.parts ≠ [] →
      IsTail
        (Text.trim (dropSeparator .outside writtenTail) ++
          (layoutOf d.literal source).close)
  complete :
    ∀ prop, .added prop ∈ d.parts →
      prop.isComplete = true

/-
  An entry of a draft and the one that is read: a kept one
  has the text that it had before, and an added one spells
  what was added.
-/
def Part.ReadAs
    (written : List Frame) : Part → Frame → Prop
  | kept index _, f =>
      written[index]?.map Frame.text = some f.text
  | added prop, f => prop.SpelledBy f.text

/-
  A draft that is read back from what is written: a list
  of just its entries, in braces.
-/
structure ReadsBack
    (d : Draft)
    (source : Source)
    (written : List Frame)
    (read : List Frame)
    (readTail : Text) : Prop where
  text : d.render source = Literal.textOf read readTail
  entries :
    List.Forall₂ (Part.ReadAs written) d.parts read
  listed : Listed read readTail

------------------------------------------------------------
-- Newlines
------------------------------------------------------------

/- The layout of a literal is made of blanks. -/
theorem isBlank_layoutOf
    (l : Literal)
    (source : Source) :
    (∀ c ∈ (layoutOf l source).lead,
        Text.isBlank c = true) ∧
      ∀ c ∈ (layoutOf l source).trail,
        Text.isBlank c = true := by
  unfold layoutOf
  simp only
  split
  · have hBlank : Text.isBlank ' ' = true := by decide
    simp [Layout.inline, hBlank]
  · constructor
    · intro c hMem
      exact List.mem_takeWhile_imp hMem
    · intro c hMem
      exact List.mem_takeWhile_imp (List.mem_reverse.mp hMem)

/- What is written before the closing brace is blank. -/
theorem isBlank_of_mem_close
    {l : Literal}
    {source : Source}
    {c : Char}
    (hMem : c ∈ (layoutOf l source).close) :
    Text.isBlank c = true := by
  rcases isBlank_layoutOf l source with ⟨hLead, hTrail⟩
  unfold Layout.close at hMem
  split at hMem
  · exact hTrail c hMem
  · split at hMem
    · rw [List.mem_reverse] at hMem
      have hSub := (List.dropWhile_sublist _).subset hMem
      exact hLead c (List.mem_reverse.mp hSub)
    · rw [List.mem_singleton] at hMem
      rw [hMem]
      decide

/-
  A draft is readable if all lines between the entries of
  the literal end in newlines, and a line ends before the
  closing brace.
-/
theorem readable_of_hasNewlines
    {l : Literal}
    {source : Source}
    {written : List Frame}
    {writtenTail : Text}
    (hWritten : l.Written source written writtenTail)
    (hLines : ∀ f ∈ written, HasNewlines f.before)
    (hLast : HasNewlines writtenTail)
    (hClose :
      ∃ c ∈ (layoutOf l source).close,
        Text.isLineEnd c = true)
    {props : List PropNode}
    {d : Draft}
    (hOrdered : Ordered l props d)
    (hComplete : ∀ prop ∈ props, prop.isComplete = true) :
    d.Readable source written writtenTail := by
  refine ⟨?_, ?_, ?_⟩
  · intro i entry hMem
    rcases hOrdered.cases_of_mem hMem with
      ⟨k, e, hPart, hEntry⟩ | ⟨_, hPart, _⟩
    · rw [Part.kept.injEq] at hPart
      rw [← hPart.1] at hEntry
      rcases hWritten.slice_entry hEntry with
        ⟨f, hFrame, _⟩
      have hFound : f ∈ written :=
        List.mem_of_getElem? hFrame
      rw [commentBefore, hFrame]
      exact isGap_dropSeparator (hLines f hFound)
        (hWritten.listed.isTail_before hFound)
    · exact absurd hPart (by simp)
  · intro _
    rw [hOrdered.literal]
    have hGap :=
      isGap_dropSeparator hLast hWritten.listed.isTail
    exact Or.inl
      (Script.isGap_trim_append hGap
        (fun c hMem => isBlank_of_mem_close hMem) hClose)
  · intro prop hMem
    rcases hOrdered.cases_of_mem hMem with
      ⟨_, _, hPart, _⟩ | ⟨p, hPart, hProp⟩
    · exact absurd hPart (by simp)
    · rw [Part.added.injEq] at hPart
      rw [hPart]
      exact hComplete p hProp

------------------------------------------------------------
-- Reading A Draft
------------------------------------------------------------

section Reading

variable {l : Literal}
variable {source : Source}
variable {written : List Frame}
variable {writtenTail : Text}
variable {props : List PropNode}
variable {d : Draft}

/- A gap before an entry leaves its comments as they are. -/
theorem isGap_before_iff
    {before : Text}
    (hBefore : isGap before = true)
    (part : Part) :
    isGap (part.frame written before).before = true ↔
      ∀ i entry, part = .kept i entry →
        isGap (commentBefore written i) = true := by
  cases part with
  | kept index entry =>
      rw [Part.frame, Script.isGap_append_iff hBefore,
        Script.isGap_trimStart_iff]
      constructor
      · rintro hGap i e ⟨rfl, rfl⟩
        exact hGap
      · intro hAll
        exact hAll index entry rfl
  | added prop => simp [Part.frame, hBefore]

/- What is written between entries is a separator. -/
theorem isSeparator_before_iff
    (y : Layout)
    (hLead : isGap y.lead = true)
    (part : Part) :
    IsSeparator
        (part.frame written y.separator).before ↔
      ∀ i entry, part = .kept i entry →
        isGap (commentBefore written i) = true := by
  have hComma :
      ∃ blank, y.separator = ',' :: blank ∧
        isGap blank = true := by
    unfold Layout.separator
    split
    · exact ⟨y.lead, rfl, hLead⟩
    · exact ⟨[' '], rfl, by decide⟩
  rcases hComma with ⟨blank, hSeparator, hBlank⟩
  rw [← isGap_before_iff hBlank, hSeparator]
  cases part with
  | kept index entry =>
      exact Script.isSeparator_comma_iff _
  | added prop => exact Script.isSeparator_comma_iff _

/- The comments at the end are set off by blanks. -/
theorem isTail_renderTrailing_iff
    (y : Layout)
    (hLead : isGap y.lead = true)
    (trailing rest : Text) :
    IsTail (renderTrailing y trailing ++ rest) ↔
      IsTail (trailing ++ rest) := by
  have hBlank : isGap y.beforeTrailing = true := by
    unfold Layout.beforeTrailing
    split
    · exact hLead
    · decide
  unfold renderTrailing
  cases trailing with
  | nil => rfl
  | cons c cs =>
      simp only [List.isEmpty_cons, Bool.false_eq_true,
        if_false, List.append_assoc]
      exact Script.isTail_append_iff hBlank

/- The frames of a draft are a list if it is readable. -/
theorem listed_iff
    (d : Draft)
    (source : Source)
    (written : List Frame)
    (writtenTail : Text) :
    Listed (d.frames source written)
        (d.tail source writtenTail) ↔
      (∀ i entry, .kept i entry ∈ d.parts →
        isGap (commentBefore written i) = true) ∧
      (d.parts ≠ [] →
        IsTail
          (Text.trim (dropSeparator .outside writtenTail) ++
            (layoutOf d.literal source).close)) := by
  have hLead := Literal.isGap_lead d.literal source
  unfold frames tail
  cases hParts : d.parts with
  | nil => simp [Listed]
  | cons part more =>
      simp only [List.isEmpty_cons, Listed,
        Bool.false_eq_true, if_false, List.forall_mem_map]
      rw [isGap_before_iff hLead,
        isTail_renderTrailing_iff _ hLead]
      simp only [isSeparator_before_iff _ hLead]
      constructor
      · rintro ⟨hFirst, hRest, hTail⟩
        refine ⟨?_, fun _ => hTail⟩
        intro i entry hMem
        rcases List.mem_cons.mp hMem with hEq | hMem
        · exact hFirst i entry hEq.symm
        · exact hRest _ hMem i entry rfl
      · rintro ⟨hAll, hTail⟩
        refine ⟨?_, ?_, hTail (by simp)⟩
        · rintro i entry rfl
          exact hAll i entry (by simp)
        · rintro p hMem i entry rfl
          exact hAll i entry (List.mem_cons_of_mem _ hMem)

/- The entries of a draft are read from its frames. -/
theorem forall₂_readAs_iff
    (hWritten : l.Written source written writtenTail)
    (hOrdered : Ordered l props d)
    (hGenerated : ∀ prop ∈ props, prop.isGenerated = true) :
    List.Forall₂ (Part.ReadAs written) d.parts
        (d.frames source written) ↔
      ∀ prop, .added prop ∈ d.parts →
        prop.isComplete = true := by
  have hPart :
      ∀ part ∈ d.parts, ∀ before,
        part.ReadAs written (part.frame written before) ↔
          ∀ prop, part = .added prop →
            prop.isComplete = true := by
    intro part hMem before
    rcases hOrdered.cases_of_mem hMem with
      ⟨i, entry, rfl, hEntry⟩ | ⟨prop, rfl, hProp⟩
    · rcases hWritten.slice_entry hEntry with
        ⟨f, hFrame, _⟩
      simp [Part.ReadAs, Part.frame, hFrame]
    · have hSpelled :=
        PropNode.spelledBy_render_iff
          (hGenerated prop hProp)
      simpa [Part.ReadAs, Part.frame] using hSpelled
  unfold frames
  cases hParts : d.parts with
  | nil => simp
  | cons part more =>
      rw [hParts] at hPart
      rw [List.forall₂_cons, List.forall₂_map_right_iff,
        List.forall₂_same, hPart part (by simp)]
      constructor
      · rintro ⟨hFirst, hRest⟩ prop hMem
        rcases List.mem_cons.mp hMem with hEq | hMem
        · exact hFirst prop hEq.symm
        · have hAdded := hPart (.added prop)
            (List.mem_cons_of_mem _ hMem)
          exact (hAdded _).mp (hRest _ hMem) prop rfl
      · intro hAll
        refine ⟨?_, ?_⟩
        · rintro prop rfl
          exact hAll prop (by simp)
        · intro p hMem
          rw [hPart p (List.mem_cons_of_mem _ hMem)]
          rintro prop rfl
          exact hAll prop (List.mem_cons_of_mem _ hMem)

/-
  However a written literal is changed, its draft has the
  entries that were kept and then those that were added,
  and it is read back just if it is readable.
-/
theorem readsBack_run_iff
    (hWritten : l.Written source written writtenTail)
    (steps : List Step)
    (hGenerated :
      ∀ s ∈ steps, ∀ prop ∈ s.added,
        prop.isGenerated = true) :
    Ordered l (steps.flatMap Step.added) (run l steps) ∧
      ((run l steps).ReadsBack source written
          ((run l steps).frames source written)
          ((run l steps).tail source writtenTail) ↔
        (run l steps).Readable source written
          writtenTail) := by
  have hOrdered := ordered_run l steps
  have hProps :
      ∀ prop ∈ steps.flatMap Step.added,
        prop.isGenerated = true := by
    intro prop hMem
    rcases List.mem_flatMap.mp hMem with ⟨s, hStep, hProp⟩
    exact hGenerated s hStep prop hProp
  have hEntries := forall₂_readAs_iff hWritten hOrdered
    hProps
  have hListed :=
    listed_iff (run l steps) source written writtenTail
  refine ⟨hOrdered, ?_⟩
  constructor
  · intro hReads
    rcases hListed.mp hReads.listed with
      ⟨hLeading, hTrailing⟩
    exact ⟨hLeading, hTrailing, hEntries.mp hReads.entries⟩
  · intro hReadable
    refine ⟨render_eq hWritten hOrdered, ?_, ?_⟩
    · exact hEntries.mpr hReadable.complete
    · exact hListed.mpr
        ⟨hReadable.leading, hReadable.trailing⟩

end Reading

------------------------------------------------------------
-- A Literal With Comments
------------------------------------------------------------

namespace Sample

/- A script that is a literal on several lines. -/
def text : Text :=
  "(\x7b\n  // a\n  a: b,\n  c, // d\n\x7d)".toList

def literal : Literal where
  span := { lo := 2, hi := 30 }
  entries :=
    [.pair { lo := 13, hi := 17 } (some ['a'])
      (.name { lo := 16, hi := 17 } ['b']),
    .other { lo := 21, hi := 22 } (some ['c']) .short]

def written : List Frame :=
  [{ before := "\n  // a\n  ".toList
     text := "a: b".toList },
   { before := ",\n  ".toList, text := "c".toList }]

def writtenTail : Text :=
  ", // d\n".toList

/- One entry is removed and one is added. -/
def steps : List Step :=
  [.remove ['c'], .add [.keyValue ['e'] (.bool true)]]

theorem written_literal :
    literal.Written (Source.ofText text) written
      writtenTail where
  listed := by
    refine ⟨by decide, ?_, Or.inr ?_⟩
    · intro f hMem
      rw [List.mem_singleton] at hMem
      rw [hMem]
      exact ⟨[], "\n  ".toList, by decide, by decide,
        by decide⟩
    · exact ⟨[], " // d\n".toList, by decide, by decide,
        by decide⟩
  placed :=
    ⟨['('], [')'], by decide, by decide, by decide,
      by decide, trivial⟩

end Sample

theorem readsBack_run_sample :
    (run Sample.literal Sample.steps).ReadsBack
      (Source.ofText Sample.text) Sample.written
      ((run Sample.literal Sample.steps).frames
        (Source.ofText Sample.text) Sample.written)
      ((run Sample.literal Sample.steps).tail
        (Source.ofText Sample.text)
        Sample.writtenTail) := by
  have hReads := readsBack_run_iff Sample.written_literal
    Sample.steps (by decide)
  refine hReads.2.mpr ?_
  exact readable_of_hasNewlines Sample.written_literal
    (by decide) (by decide) ⟨'\n', by decide, by decide⟩
    hReads.1 (by decide)

/-
  A comment up to the end of its line swallows the closing
  brace of a draft that is written on one line.
-/
example :
    (run
        { span := { lo := 2, hi := 14 }
          entries :=
            [.pair { lo := 3, hi := 7 } (some ['a'])
              (.name { lo := 6, hi := 7 } ['b'])] }
        [.add [.keyValue ['e'] (.bool true)]]).render
      (Source.ofText "(\x7ba: b // c\n\x7d)".toList) =
      "\x7b a: b, e: true // c \x7d".toList := by
  decide

end Draft

end ComponentLoader
