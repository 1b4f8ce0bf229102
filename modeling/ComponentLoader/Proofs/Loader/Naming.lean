import Mathlib.Tactic
import ComponentLoader.Proofs.Component.GivenName
import ComponentLoader.Proofs.Loader.Preservation

/-
  The name of a class without one in compiled code.  It
  directly follows the keyword of the class, and is read
  as its name, unless a comment from the start of the
  class up to this keyword has the keyword as a word; the
  name is then in that comment.

  Main declarations:
    * `Loader.exists_code_of_nameEdit?`
    * `Loader.Named`
    * `Loader.Hidden`
    * `Loader.named_iff_not_obstructs`
-/

------------------------------------------------------------
-- Code Around A Name
------------------------------------------------------------

namespace ComponentLoader

/- Edits of passages after a number of them. -/
theorem Passage.AllEdited.drop
    {f : File}
    {before : Text}
    {ps qs : List Passage}
    (hEdited : AllEdited f before (ps ++ qs)) :
    AllEdited f (before ++ ps.flatMap written) qs := by
  induction ps generalizing before with
  | nil => simpa using hEdited
  | cons p ps ih =>
      have hRest := ih hEdited.2.2
      rwa [List.flatMap_cons, ← List.append_assoc]

namespace Loader

/- Glue does not go on with a word. -/
theorem endsWord_glueOf
    (settings : Settings)
    (table : HotReload.Table)
    (code : Text) :
    Script.endsWord (glueOf settings table code) = true := by
  have hGlue : ∀ table : HotReload.Table,
      Script.endsWord (HotReload.glue table) = true := by
    intro table
    unfold HotReload.glue
    split
    · rfl
    · rfl
  unfold glueOf
  split
  · split
    · exact hGlue table
    · rfl
  · rfl

/-
  A component that changes has a passage.  Another starts
  where the component may get a name only if there is text
  between the two.
-/
theorem Edited.exists_passage
    {f : File}
    {components : List Component}
    {first : Text}
    {passages : List Passage}
    {c : Component}
    (hEdited : Edited f components first passages)
    (hMem : c ∈ Loader.changed f components) :
    ∃ ps p qs after,
      passages = ps ++ p :: qs ∧
        p.component = c ∧
        c.Stands f (first ++ ps.flatMap Passage.written)
          p.literal p.between after ∧
        (p.rest = [] → qs = []) := by
  have hPassages := hEdited.changed.mem_iff.mpr hMem
  rcases List.mem_map.mp hPassages with ⟨p, hPassage, rfl⟩
  rcases List.append_of_mem hPassage with ⟨ps, qs, rfl⟩
  rcases hEdited.stand.drop with
    ⟨⟨after, hStands⟩, _, hLater⟩
  refine ⟨ps, p, qs, after, rfl, rfl, hStands, ?_⟩
  intro hRest
  cases qs with
  | nil => rfl
  | cons q qs =>
      exfalso
      rcases hLater with ⟨⟨_, hNext⟩, _, _⟩
      have hOrder := hEdited.ordered
      rw [List.map_append, List.pairwise_append] at hOrder
      have hPair := List.rel_of_pairwise_cons hOrder.2.1
        List.mem_cons_self
      unfold Component.Before at hPair
      rw [hStands.stop_eq, hNext.start_eq, Passage.written,
        hRest, List.append_nil, ← List.append_assoc]
        at hPair
      exact Nat.lt_irrefl _ hPair

/-
  The code of a file around a name that is put into it.
  What follows the name ends it where it would have ended
  the text before it.
-/
theorem exists_code_of_nameEdit?
    {f : File}
    {m : Script.Module}
    {c : Component}
    {before found rest : Text}
    (hPlaced : m.Placed f.source)
    (hMem :
      c ∈ Component.ofCandidates
        (Candidate.ofModule f.settings.decoratorName m))
    (hName : c.getsName f = true)
    (hText : f.source.text = before ++ found ++ rest)
    (hLiteral :
      c.literal.span.hi ≤
        f.source.start + Text.size before)
    (hEdit :
      c.nameEdit? f =
        some [c.nameAfter f (before ++ found)])
    {mark : Text}
    {result : Result}
    (hResult : compile? f mark m = some result) :
    ∃ done tail,
      result.code =
          done ++ (found ++ ' ' :: c.name f ++ tail) ∧
        (Script.endsWord rest = true →
          Script.endsWord tail = true) := by
  rcases exists_edited hPlaced with
    ⟨first, passages, hEdited⟩
  rcases hEdited.exists_passage (List.mem_filter.mpr
      ⟨hMem, Component.modified_of_getsName hName⟩) with
    ⟨ps, p, qs, _, rfl, rfl, hStands, hLast⟩
  let start := first ++ ps.flatMap Passage.written
  have hWhole :
      start ++ p.literal ++ p.between ++
          (p.rest ++ qs.flatMap Passage.written) =
        before ++ found ++ rest := by
    rw [← hText, hEdited.text, List.flatMap_append,
      List.flatMap_cons, Passage.written]
    simp only [start, List.append_assoc]
  have hSize :
      Text.size (start ++ p.literal ++ p.between) =
        Text.size (before ++ found) := by
    have hSame := hStands.name.symm.trans hEdit
    simp only [Component.nameAfter, Option.some.injEq,
      List.cons.injEq, Edit.mk.injEq] at hSame
    exact hSame.1.1
  rcases Text.append_inj_of_size hWhole hSize with
    ⟨hFront, hLeft⟩
  -- what is found follows the literal
  have hBefore :
      Text.size (start ++ p.literal) ≤ Text.size before := by
    have hSpan :
        p.component.literal.span =
          f.source.spanOf start p.literal := hStands.span
    rw [hSpan] at hLiteral
    simp only [Source.spanOf] at hLiteral
    rw [Text.size_append]
    omega
  rcases Text.exists_append_of_size_le hFront hBefore with
    ⟨between, _, hBetween⟩
  let code :=
    mark ++ first ++
      (ps ++ p :: qs).flatMap (Passage.compiled f)
  refine ⟨mark ++ first ++ ps.flatMap (Passage.compiled f) ++
      (p.component.draft f).render f.source ++ between,
    p.rest ++ qs.flatMap (Passage.compiled f) ++
      glueOf f.settings result.table code,
    ?_, ?_⟩
  · rcases hEdited.exists_compile? mark with
      ⟨other, hOther, hCode⟩
    cases hResult.symm.trans hOther
    rw [hCode]
    simp only [code, List.flatMap_append, List.flatMap_cons,
      Passage.compiled, Component.inserted, if_pos hName,
      hBetween, List.append_assoc, List.cons_append]
  · intro hEnd
    cases hRest : p.rest with
    | cons d ds =>
        rw [← hLeft, hRest] at hEnd
        exact hEnd
    | nil =>
        rw [hLast hRest]
        exact endsWord_glueOf _ _ _

------------------------------------------------------------
-- Where A Name Is Put
------------------------------------------------------------

/-
  A class that gets its name directly after its keyword.
  From there the code is read as the class of that name.
-/
structure Named
    (f : File)
    (c : Component)
    (types : Bool)
    (h : Script.Heading)
    (result : Result) : Prop where
  edit :
    c.nameEdit? f =
      some
        [c.nameAfter f
          (h.before ++ h.skipped ++
            (h.crossed ++ Text.classKeyword))]
  code :
    ∃ done tail,
      result.code =
          done ++
            (h.skipped ++ h.crossed ++ Text.classKeyword ++
              ' ' :: c.name f ++ tail) ∧
        Script.DeclaresDefault types (c.name f)
          (h.skipped ++ h.crossed ++ Text.classKeyword ++
            ' ' :: c.name f ++ tail)

/-
  A class whose name is put after another keyword, which
  is before its own.  With the name in it, what stands
  before the keyword of the class still is what may stand
  there: no token of it is the name.
-/
structure Hidden
    (f : File)
    (c : Component)
    (types : Bool)
    (h : Script.Heading)
    (result : Result)
    (first rest : Text) : Prop where
  crossed : h.crossed = first ++ Text.classKeyword ++ rest
  edit :
    c.nameEdit? f =
      some
        [c.nameAfter f
          (h.before ++ h.skipped ++
            (first ++ Text.classKeyword))]
  lead :
    Script.Lead types
      (h.skipped ++ (first ++ Text.classKeyword) ++
        ' ' :: c.name f ++ rest)
  code :
    ∃ done tail,
      result.code =
        done ++
          (h.skipped ++ (first ++ Text.classKeyword) ++
            ' ' :: c.name f ++ tail)

/- A name is put at one place only. -/
theorem Named.not_hidden
    {f : File}
    {c : Component}
    {types : Bool}
    {h : Script.Heading}
    {result : Result}
    {first rest : Text}
    (hNamed : Named f c types h result) :
    ¬ Hidden f c types h result first rest := by
  intro hHidden
  have hSame := hNamed.edit.symm.trans hHidden.edit
  have hWord : Text.size Text.classKeyword = 5 := by decide
  simp only [Component.nameAfter, Option.some.injEq,
    List.cons.injEq, Edit.mk.injEq, hHidden.crossed,
    Text.size_append, hWord] at hSame
  omega

section Compiled

variable {f : File}
variable {m : Script.Module}
variable {c : Component}
variable {types : Bool}
variable {h : Script.Heading}

/- The literal of a component ends before its heading. -/
theorem literal_le_of_heads
    (hPlaced : m.Placed f.source)
    (hMem :
      c ∈ Component.ofCandidates
        (Candidate.ofModule f.settings.decoratorName m))
    (hHeads :
      h.Heads c.candidate.decl f.source types) :
    c.literal.span.hi ≤
      f.source.start + Text.size h.before := by
  rcases Component.mem_ofCandidates_iff.mp hMem with
    ⟨hCandidate, hLiteral⟩
  rcases Candidate.exists_placed hPlaced
      (List.mem_of_getElem? hCandidate) with
    ⟨region, hRegion⟩
  rcases Component.exists_literal_inside hRegion hLiteral
    with ⟨_, d, hDecorator, hInside⟩
  exact Nat.le_trans hInside.2
    (hHeads.decorators d hDecorator)

theorem named_of_compile?
    (hPlaced : m.Placed f.source)
    (hMem :
      c ∈ Component.ofCandidates
        (Candidate.ofModule f.settings.decoratorName m))
    (hEmits : f.settings.emitsHotReload = true)
    (hAnonymous : c.candidate.name = none)
    (hDigest : ∀ d ∈ f.digest, Text.isPlainPart d = true)
    (hHeads :
      h.Heads c.candidate.decl f.source types)
    (hClear : ¬ Text.Obstructs h.crossed)
    {mark : Text}
    {result : Result}
    (hResult : compile? f mark m = some result) :
    Named f c types h result := by
  have hGets : c.getsName f = true := by
    simp [Component.getsName, hAnonymous, hEmits]
  have hEdit :=
    Component.nameEdit?_of_not_obstructs hHeads hClear
  have hAt :
      c.nameEdit? f =
        some
          [c.nameAfter f
            (h.before ++
              (h.skipped ++ h.crossed ++
                Text.classKeyword))] := by
    rw [hEdit]
    simp only [List.append_assoc]
  have hText :
      f.source.text =
        h.before ++
          (h.skipped ++ h.crossed ++ Text.classKeyword) ++
          h.after := by
    rw [hHeads.text]
    simp only [List.append_assoc]
  rcases exists_code_of_nameEdit? hPlaced hMem hGets hText
      (literal_le_of_heads hPlaced hMem hHeads) hAt hResult
    with ⟨done, tail, hCode, hTail⟩
  have hName := Component.name_of_anonymous (f := f)
    hAnonymous
  refine ⟨hEdit, done, tail, hCode, ?_⟩
  apply hHeads.lead.declaresDefault
  · rw [hName]
    exact Component.isPlainIdentifier_givenName hDigest c
  · rw [hName]
    exact Component.isReserved_givenName c f
  · exact hTail hHeads.ends

theorem exists_hidden_of_compile?
    (hPlaced : m.Placed f.source)
    (hMem :
      c ∈ Component.ofCandidates
        (Candidate.ofModule f.settings.decoratorName m))
    (hEmits : f.settings.emitsHotReload = true)
    (hAnonymous : c.candidate.name = none)
    (hDigest : ∀ d ∈ f.digest, Text.isPlainPart d = true)
    (hHeads :
      h.Heads c.candidate.decl f.source types)
    (hObstructs : Text.Obstructs h.crossed)
    {mark : Text}
    {result : Result}
    (hResult : compile? f mark m = some result) :
    ∃ first rest,
      Hidden f c types h result first rest := by
  have hGets : c.getsName f = true := by
    simp [Component.getsName, hAnonymous, hEmits]
  rcases Component.exists_nameEdit?_of_obstructs hDigest
      hAnonymous hHeads hObstructs with
    ⟨first, rest, hCrossed, hEdit, hLead⟩
  have hAt :
      c.nameEdit? f =
        some
          [c.nameAfter f
            (h.before ++
              (h.skipped ++
                (first ++ Text.classKeyword)))] := by
    rw [hEdit]
    simp only [List.append_assoc]
  have hText :
      f.source.text =
        h.before ++
          (h.skipped ++ (first ++ Text.classKeyword)) ++
          (rest ++ Text.classKeyword ++ h.after) := by
    rw [hHeads.text, hCrossed]
    simp only [List.append_assoc]
  rcases exists_code_of_nameEdit? hPlaced hMem hGets hText
      (literal_le_of_heads hPlaced hMem hHeads) hAt hResult
    with ⟨done, tail, hCode, _⟩
  exact ⟨first, rest, hCrossed, hEdit, hLead, done, tail,
    hCode⟩

end Compiled

/-
  A class without a name gets the one in the table.  The
  name directly follows the keyword of the class, and is
  read as its name, just if no word between the start of
  the class and this keyword is that keyword; else it is
  hidden in the comment with the first such word.
-/
theorem named_iff_not_obstructs
    {source : Text}
    {context : Context}
    {options : Options}
    {m : Script.Module}
    {c : Component}
    {p : Script.Place}
    (hOptions : options.fault? = none)
    (hMentioned :
      Text.occursIn
          (Settings.resolve context options).decoratorName
          source = true)
    (hParsed :
      Script.parse (Dialect.ofPath context.path)
          (splitMark source).2 = .ok m)
    (hPlaced :
      m.Placed (Source.ofText (splitMark source).2))
    (hEmits :
      (Settings.resolve context options).emitsHotReload =
        true)
    (hMem :
      c ∈ Component.ofCandidates
        (Candidate.ofModule
          (Settings.resolve context options).decoratorName
          m))
    (hAnonymous : c.candidate.name = none)
    (hRead :
      c.candidate.decl.ReadIn
        (Source.ofText (splitMark source).2)
        (Dialect.ofPath context.path).types p) :
    ∃ result,
      transform source context options =
          some (.ok result) ∧
        c.name
            (fileOf context (Settings.resolve context options)
              (splitMark source).2) ∈
          Dict.keys result.table ∧
        (∃ h : Script.Heading,
          h.Heads c.candidate.decl
            (Source.ofText (splitMark source).2)
            (Dialect.ofPath context.path).types) ∧
        ∀ h : Script.Heading,
          h.Heads c.candidate.decl
              (Source.ofText (splitMark source).2)
              (Dialect.ofPath context.path).types →
            (Named
                (fileOf context
                  (Settings.resolve context options)
                  (splitMark source).2)
                c (Dialect.ofPath context.path).types h
                result ↔
              ¬ Text.Obstructs h.crossed) ∧
            (Text.Obstructs h.crossed →
              ∃ first rest,
                Hidden
                  (fileOf context
                    (Settings.resolve context options)
                    (splitMark source).2)
                  c (Dialect.ofPath context.path).types h
                  result first rest) := by
  let f := fileOf context (Settings.resolve context options)
    (splitMark source).2
  let mark := (splitMark source).1
  have hFile : m.Placed f.source := hPlaced
  have hDigest :
      ∀ d ∈ f.digest, Text.isPlainPart d = true := by
    intro d hMem
    exact Digest.isPlainPart_of_mem_file hMem
  rcases exists_preserved_compile? hFile mark with
    ⟨result, _, _, hResult, _⟩
  refine ⟨result, ?_, ?_, hRead.exists_heading, ?_⟩
  · rw [transform_of_ok hOptions hMentioned hParsed, hResult,
      Option.map_some]
  · rw [table_of_compile? hResult]
    exact name_mem_keys_tableOf hMem
  · intro h hHeads
    have hHidden : Text.Obstructs h.crossed →
        ∃ first rest,
          Hidden f c (Dialect.ofPath context.path).types h
            result first rest := by
      intro hObstructs
      exact exists_hidden_of_compile? hFile hMem hEmits
        hAnonymous hDigest hHeads hObstructs hResult
    refine ⟨⟨?_, ?_⟩, hHidden⟩
    · intro hNamed hObstructs
      rcases hHidden hObstructs with ⟨first, rest, hOther⟩
      exact hNamed.not_hidden hOther
    · intro hClear
      exact named_of_compile? hFile hMem hEmits hAnonymous
        hDigest hHeads hClear hResult

------------------------------------------------------------
-- A Keyword In A Comment
------------------------------------------------------------

namespace Sample

def commented : Text :=
  "@C({})export default abstract/*class*/class{}".toList

def typedContext : Context :=
  { path := "/app/A.ts".toList
    root := "/app".toList
    request := [] }

def earlyDecorator : Script.Decorator where
  value :=
    .call { lo := 2, hi := 7 }
      (.name { lo := 2, hi := 3 } ['C'])
      [.item (.object { lo := 4, hi := 6 } [])]
  hi := 7

def commentedDecl : Script.Class where
  lo := 22
  decorators := [earlyDecorator]

def commentedTree : Script.Module where
  items := [.mk (.exportDefault none commentedDecl) []]

def commentedComponent : Component where
  ordinal := 0
  candidate :=
    { scope := []
      name := none
      decl := commentedDecl
      call :=
        { span := { lo := 2, hi := 7 }
          arguments :=
            [.item (.object { lo := 4, hi := 6 } [])] } }
  literal := { span := { lo := 4, hi := 6 }, entries := [] }

/- The class around its keyword, not that of the comment. -/
def commentedHeading : Script.Heading where
  before := commented.take 20
  skipped := [' ']
  crossed := "abstract/*class*/".toList
  after := ['{', '}']

theorem placed_commentedTree :
    commentedTree.Placed (Source.ofText commented) := by
  have hLiteral :
      (Source.ofText commented).Holds { lo := 4, hi := 6 } :=
    ⟨commented.take 3, ['{', '}'], commented.drop 5,
      by decide, by decide, by decide⟩
  apply Script.Module.placed_singleton { lo := 1, hi := 46 }
  apply Script.Item.placed_of_shape
  refine ⟨⟨commented.take 21, commented.drop 21, by decide,
    by decide⟩, by decide, ?_, commented.take 38,
    ['{', '}'], by decide, ⟨by decide, by decide⟩,
    by decide, ?_, by decide⟩
  · rw [commentedDecl, List.forall_mem_singleton]
    exact Script.Decorator.placed_call
      ⟨commented.take 6, commented.drop 6, by decide,
        by decide⟩
      (by unfold Span.Inside; decide)
      (by unfold Span.Inside; decide) hLiteral
  · rw [commentedDecl, List.forall_mem_singleton]
    decide

theorem heads_commented :
    commentedHeading.Heads commentedDecl
      (Source.ofText commented) true := by
  have hSpace : Script.Skips .outside false [' '] false :=
    .blank (by decide) (.done false)
  have hWord :
      Text.classKeyword.all Script.isQuiet = true := by
    decide
  have hBlock :
      Script.Skips .outside false
        (['/', '*'] ++ Text.classKeyword ++ ['*', '/'])
        false :=
    .block ((Script.Skips.blockEnd (.done false)).block_append
      (List.all_eq_true.mp hWord))
  refine ⟨by decide,
    .abstract hSpace hBlock (fun _ => rfl), by decide, ?_,
    by decide⟩
  rw [commentedDecl, List.forall_mem_singleton]
  decide

/- The place after `default`. -/
def afterDefault : Script.Place where
  rest := commented.drop 20
  pos := 21

/- What is read from there. -/
def readDefault :
    Except Script.Cursor (Script.Shape × Script.Cursor) :=
  Script.Grammar.exportDefault (Script.rules 20)
    { types := true, markup := false }
    { decorators := [earlyDecorator], inner := [] }
    (Script.Cursor.atPlace false 20 [] afterDefault)

theorem readIn_commented :
    commentedDecl.ReadIn (Source.ofText commented) true
      afterDefault := by
  have hShape :
      readDefault.toOption.map Prod.fst =
        some (.exportDefault none commentedDecl) := by
    decide +kernel
  refine ⟨⟨commented.take 20, by decide, by decide⟩, ?_, ?_⟩
  · rw [commentedDecl, List.forall_mem_singleton]
    decide
  · cases hRead : readDefault with
    | error c =>
        rw [hRead] at hShape
        cases hShape
    | ok read =>
        rw [hRead] at hShape
        rcases read with ⟨shape, c⟩
        have hDecl :
            shape = .exportDefault none commentedDecl :=
          Option.some.inj hShape
        rw [hDecl] at hRead
        exact ⟨_, _, _, _, _, c, rfl, by decide, hRead⟩

end Sample

/- The name is in the comment, not after the keyword. -/
theorem named_iff_not_obstructs_sample :
    ∃ result,
      transform Sample.commented Sample.typedContext
          Sample.options = some (.ok result) ∧
        Sample.commentedComponent.name
            (fileOf Sample.typedContext
              (Settings.resolve Sample.typedContext
                Sample.options)
              (splitMark Sample.commented).2) ∈
          Dict.keys result.table ∧
        ¬ Named
          (fileOf Sample.typedContext
            (Settings.resolve Sample.typedContext
              Sample.options)
            (splitMark Sample.commented).2)
          Sample.commentedComponent true
          Sample.commentedHeading result := by
  have hParsed :
      Script.parse (Dialect.ofPath Sample.typedContext.path)
          (splitMark Sample.commented).2 =
        .ok Sample.commentedTree :=
    by decide +kernel
  have hObstructs :
      Text.Obstructs Sample.commentedHeading.crossed :=
    ⟨"abstract/*".toList, ['*', '/'], by decide,
      by decide, by decide⟩
  have hOptions : Sample.options.fault? = none := rfl
  have hMem :
      Sample.commentedComponent ∈
        Component.ofCandidates
          (Candidate.ofModule
            (Settings.resolve Sample.typedContext
              Sample.options).decoratorName
            Sample.commentedTree) :=
    List.mem_cons_self
  rcases named_iff_not_obstructs hOptions (by decide) hParsed
      Sample.placed_commentedTree (by decide) hMem rfl
      Sample.readIn_commented with
    ⟨result, hResult, hTable, _, hHeadings⟩
  refine ⟨result, hResult, hTable, fun hNamed => ?_⟩
  exact (hHeadings _ Sample.heads_commented).1.mp hNamed
    hObstructs

end Loader

end ComponentLoader
