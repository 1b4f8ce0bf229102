import Mathlib.Tactic
import ComponentLoader.Proofs.Loader.Preservation
import ComponentLoader.Proofs.Component.Styles
import ComponentLoader.Script.Parser

/-
  What a byte order mark before a file changes.

  The mark is taken off before the file is parsed, so that
  a file with a mark is compiled as the one without it.  Of
  two marks the second is left to the parser, which passes
  over it: the same components are found and recorded.  But
  their positions do not count its bytes, and where one of
  them falls inside a character the loader is aborted.

  Main declarations:
    * `Styles.verdict_classify`
    * `Loader.tableOf_congr`
    * `Script.parse_mark`
    * `Loader.second_mark_cases`
    * `Loader.MarkedTwice`
    * `Loader.transform_marks`
-/

------------------------------------------------------------
-- Records
------------------------------------------------------------

namespace ComponentLoader

namespace Styles

/- What is found out about a style, without its code. -/
def Outcome.verdict
    (o : Outcome) : Bool × Bool :=
  (o.isScoped, o.changed)

section Verdicts

variable (source other : Source)
variable (scopeId : Text)

theorem verdict_kept
    (value : Value) :
    (kept source value).verdict = (false, false) := by
  cases value <;> rfl

theorem verdict_ofDescriptor
    (value : Value)
    (l : Literal)
    (entries : Dict Value) :
    (ofDescriptor source scopeId value l entries).verdict =
      (ofDescriptor other scopeId value l
        entries).verdict := by
  unfold ofDescriptor
  simp only
  split
  · rw [verdict_kept, verdict_kept]
  · rfl

theorem verdict_ofItems
    {value : Value}
    {outcomes others : List Outcome}
    (hSame :
      outcomes.map Outcome.verdict =
        others.map Outcome.verdict) :
    (ofItems source value outcomes).verdict =
      (ofItems other value others).verdict := by
  have hScoped :
      (outcomes.any fun o => o.isScoped) =
        others.any fun o => o.isScoped := by
    have hAny :=
      congrArg (List.any · Prod.fst) hSame
    simp only [List.any_map] at hAny
    exact hAny
  have hChanged :
      (outcomes.any fun o => o.changed) =
        others.any fun o => o.changed := by
    have hAny :=
      congrArg (List.any · Prod.snd) hSame
    simp only [List.any_map] at hAny
    exact hAny
  unfold ofItems
  rw [hChanged]
  split
  · simp only [Outcome.verdict, hScoped]
  · rw [verdict_kept, verdict_kept]

mutual

/- Whether styles are scoped does not depend on the text. -/
theorem verdict_classify :
    (value : Value) →
    (classify source scopeId value).verdict =
      (classify other scopeId value).verdict
  | .seq span items => by
      rw [classify, classify]
      exact verdict_ofItems source other
        (verdict_classifyAll items)
  | .map l entries additional => by
      rw [classify_map, classify_map]
      split
      · exact verdict_ofDescriptor source other scopeId _ l
          entries
      · rw [verdict_kept, verdict_kept]
  | .expr e => by
      have hValue :
          ∀ s : Source,
            classify s scopeId (.expr e) =
              match e.importPath? with
              | some path => ofPath path
              | none => kept s (.expr e) := fun _ => rfl
      rw [hValue, hValue]
      split
      · rfl
      · rfl
  | .bool _ _ => rfl
  | .num _ _ => rfl
  | .str _ _ => rfl
  | .prop _ => rfl
  | .element _ => rfl
  | .hole => rfl
termination_by structural value => value

theorem verdict_classifyAll :
    (values : List Value) →
    (classifyAll source scopeId values).map
        Outcome.verdict =
      (classifyAll other scopeId values).map
        Outcome.verdict
  | [] => rfl
  | value :: rest => by
      rw [classifyAll, classifyAll, List.map_cons,
        List.map_cons, verdict_classify value,
        verdict_classifyAll rest]
termination_by structural values => values

end

end Verdicts

end Styles

namespace Component

section Files

variable {f g : File}

/-
  What is recorded for a component does not depend on the
  text around it.
-/
theorem record_congr
    (hSettings : f.settings = g.settings)
    (hDigest : f.digest = g.digest)
    (c : Component) :
    c.record f = c.record g := by
  have hScopeId : c.scopeId f = c.scopeId g := by
    rw [scopeId, scopeId, hDigest]
  have hNames : f.names = g.names := by
    rw [File.names, File.names, hSettings]
  have hScoped :
      (c.fragments f).isScoped = (c.fragments g).isScoped := by
    unfold fragments Fragments.ofParams
    simp only [hScopeId, hNames]
    cases (Params.ofLiteral c.literal g.names).styles with
    | none => rfl
    | some value =>
        exact congrArg Prod.fst
          (Styles.verdict_classify f.source g.source
            (c.scopeId g) value)
  have hTemplate :
      ∀ file : File,
        (c.fragments file).template =
          (Params.ofLiteral c.literal
            file.names).template.bind
            (templateOf
              (if (c.fragments file).isScoped then
                some (c.scopeId file)
              else none)) := fun _ => rfl
  unfold record Fragments.templateRequest?
  rw [hTemplate f, hTemplate g, hScoped, hScopeId, hNames]

theorem name_congr
    (hDigest : f.digest = g.digest)
    (c : Component) :
    c.name f = c.name g := by
  unfold name givenName
  rw [hDigest]

end Files

end Component

namespace Loader

/- Files of the same settings have the same components. -/
theorem componentsOf_congr
    {f g : File}
    (hSettings : f.settings = g.settings)
    (m : Script.Module) :
    componentsOf f m = componentsOf g m := by
  rw [componentsOf, componentsOf, candidatesOf, candidatesOf,
    hSettings]

/- Files that differ in their texts have the same table. -/
theorem tableOf_congr
    {f g : File}
    (hSettings : f.settings = g.settings)
    (hDigest : f.digest = g.digest)
    (components : List Component) :
    tableOf f components = tableOf g components := by
  unfold tableOf
  congr 1
  apply List.map_congr_left
  intro c _
  rw [Component.name_congr hDigest,
    Component.record_congr hSettings hDigest]

end Loader

------------------------------------------------------------
-- Marked Texts
------------------------------------------------------------

namespace Text

/- Whether a text starts with a byte order mark. -/
def IsMarked
    (t : Text) : Prop :=
  t.head? = some byteOrderMark

/- An identifier is found whether there is a mark or not. -/
theorem occursIn_mark
    {name : Text}
    (hName : isPlainIdentifier name = true)
    (t : Text) :
    occursIn name (byteOrderMark :: t) =
      occursIn name t := by
  cases name with
  | nil => exact absurd hName (by decide)
  | cons c cs =>
      have hOther : c ≠ byteOrderMark := by
        rintro rfl
        rw [isPlainIdentifier, Bool.and_eq_true] at hName
        exact absurd hName.1 (by decide)
      rw [occursIn, after?, if_neg hOther]
      rfl

end Text

namespace Script

/- The parser passes over one mark. -/
theorem parse_mark
    {t : Text}
    (hMark : ¬ t.IsMarked)
    (dialect : Dialect) :
    parse dialect (Text.byteOrderMark :: t) =
      parse dialect t := by
  have hStart :
      startOf (Text.byteOrderMark :: t) = startOf t := by
    cases t with
    | nil => rfl
    | cons c cs =>
        have hOther : c ≠ Text.byteOrderMark := by
          rintro rfl
          exact hMark rfl
        simp only [startOf, if_true, if_neg hOther]
  unfold parse
  rw [hStart]

end Script

namespace Loader

/- A result with a byte order mark before its code. -/
def Result.marked
    (r : Result) : Result :=
  { r with code := Text.byteOrderMark :: r.code }

theorem splitMark_mark
    (t : Text) :
    splitMark (Text.byteOrderMark :: t) =
      ([Text.byteOrderMark], t) := by
  rw [splitMark, if_pos rfl]

theorem splitMark_of_not_isMarked
    {t : Text}
    (hMark : ¬ t.IsMarked) :
    splitMark t = ([], t) := by
  cases t with
  | nil => rfl
  | cons c cs =>
      have hOther : c ≠ Text.byteOrderMark := by
        rintro rfl
        exact hMark rfl
      rw [splitMark, if_neg hOther]

/- The code of a file is written after its mark. -/
theorem compile?_mark
    (f : File)
    (m : Script.Module) :
    compile? f [Text.byteOrderMark] m =
      (compile? f [] m).map Result.marked := by
  have hGlue :
      ∀ table code,
        withGlue f.settings table
            (Text.byteOrderMark :: code) =
          Text.byteOrderMark ::
            withGlue f.settings table code := by
    intro table code
    have hEnd :
        Text.endsWith '\n' (Text.byteOrderMark :: code) =
          Text.endsWith '\n' code := by
      cases code with
      | nil => decide
      | cons c cs => rfl
    unfold withGlue endLine
    rw [hEnd]
    split
    · split
      · rfl
      · rfl
    · rfl
  unfold compile?
  simp only
  split
  · rfl
  · rw [Option.map_map]
    simp only [Function.comp_def, Result.marked,
      List.nil_append, List.singleton_append, hGlue]

------------------------------------------------------------
-- Cuts
------------------------------------------------------------

end Loader

/- An edit that starts and ends between characters. -/
def Edit.Cuts
    (t : Text)
    (e : Edit) : Prop :=
  ∃ before cut after,
    t = before ++ cut ++ after ∧
      e.start = Text.size before ∧
      e.stop = Text.size (before ++ cut)

/- The edits of a component cut no character. -/
theorem Component.cuts_of_mem_edits
    {c : Component}
    {f : File}
    {before literal between after : Text}
    (hStands : c.Stands f before literal between after)
    {e : Edit}
    (hMem : e ∈ c.edits f) :
    e.Cuts f.source.text := by
  cases hModified : (c.draft f).modified with
  | false =>
      rw [edits_of_not_modified hModified] at hMem
      exact absurd hMem (by simp)
  | true =>
      rw [edits_of_stands hStands hModified,
        List.mem_cons] at hMem
      rcases hMem with rfl | hMem
      · refine ⟨before, literal, between ++ after, ?_, rfl,
          rfl⟩
        rw [hStands.text]
        simp only [List.append_assoc]
      · split at hMem
        · rw [List.mem_singleton] at hMem
          subst hMem
          refine ⟨before ++ literal ++ between, [], after,
            ?_, rfl, ?_⟩
          · rw [hStands.text, List.append_nil]
          · rw [List.append_nil]
            rfl
        · exact absurd hMem (by simp)

namespace Loader

/- The edits of a file cut no character. -/
theorem exists_cuts_of_placed
    {f : File}
    {m : Script.Module}
    (hPlaced : m.Placed f.source) :
    ∃ edits,
      editsOf? f (componentsOf f m) = some edits ∧
        ∀ e ∈ edits, e.Cuts f.source.text := by
  have hStands :=
    (Component.pairwise_ofCandidates_before
      f.settings.decoratorName hPlaced).1
  refine ⟨_, editsOf?_of_stands hStands, ?_⟩
  intro e hMem
  rcases List.mem_flatMap.mp hMem with ⟨c, hC, hEdit⟩
  rcases hStands c hC with
    ⟨before, literal, between, after, hComponent⟩
  exact Component.cuts_of_mem_edits hComponent hEdit

------------------------------------------------------------
-- Marked Files
------------------------------------------------------------

section Marks

variable {source : Text}
variable {context : Context}
variable {options : Options}

theorem isPlainIdentifier_of_fault?
    (hOptions : options.fault? = none) :
    Text.isPlainIdentifier options.decoratorName = true := by
  by_contra hOther
  rw [Bool.not_eq_true] at hOther
  unfold Options.fault? at hOptions
  rw [hOther, Bool.not_false, if_pos rfl] at hOptions
  cases hOptions

theorem parsed_mark
    (hMark : ¬ source.IsMarked)
    (settings : Settings) :
    parsed (Text.byteOrderMark :: source) context settings =
      (parsed source context settings).map
        (Except.map Result.marked) := by
  unfold parsed
  rw [splitMark_mark, splitMark_of_not_isMarked hMark]
  simp only
  split
  · rfl
  · rw [compile?_mark, Option.map_map, Option.map_map]
    rfl

/- A mark is put back before the code. -/
theorem transform_mark
    (hMark : ¬ source.IsMarked) :
    transform (Text.byteOrderMark :: source) context
        options =
      (transform source context options).map
        (Except.map Result.marked) := by
  cases hOptions : options.fault? with
  | some fault =>
      unfold transform
      rw [hOptions]
      rfl
  | none =>
      have hName := isPlainIdentifier_of_fault? hOptions
      rw [transform_of_fault? hOptions,
        transform_of_fault? hOptions,
        Text.occursIn_mark hName]
      split
      · exact parsed_mark hMark _
      · rfl

theorem settings_fileOf
    (context : Context)
    (settings : Settings)
    (body other : Text) :
    (fileOf context settings body).settings =
      (fileOf context settings other).settings :=
  rfl

/- In development the digest does not depend on the text. -/
theorem digest_fileOf
    {settings : Settings}
    (hDevelopment : settings.production = false)
    (body : Text) :
    (fileOf context settings body).digest =
      Digest.short settings.shortPath := by
  simp only [fileOf, Digest.file, hDevelopment,
    Bool.false_eq_true, if_false]

/-
  What a file comes to with one mark and with two.  It is
  refused either way, or handed back, or compiled as the
  same module: with one mark in the text that was parsed,
  with two in the one that starts with the second.
-/
theorem second_mark_cases
    (hMark : ¬ source.IsMarked) :
    (∃ e,
        transform (Text.byteOrderMark :: source) context
            options = some (.error e) ∧
          transform
              (Text.byteOrderMark ::
                Text.byteOrderMark :: source)
              context options = some (.error e)) ∨
      (transform (Text.byteOrderMark :: source) context
            options =
          some
            (.ok (unchanged (Text.byteOrderMark :: source))) ∧
        transform
            (Text.byteOrderMark ::
              Text.byteOrderMark :: source)
            context options =
          some
            (.ok
              (unchanged
                (Text.byteOrderMark ::
                  Text.byteOrderMark :: source)))) ∨
      ∃ m,
        options.fault? = none ∧
          Text.occursIn options.decoratorName source = true ∧
          Script.parse (Dialect.ofPath context.path) source =
            .ok m ∧
          let settings := Settings.resolve context options
          transform (Text.byteOrderMark :: source) context
                options =
              (compile? (fileOf context settings source)
                [Text.byteOrderMark] m).map .ok ∧
            transform
                (Text.byteOrderMark ::
                  Text.byteOrderMark :: source)
                context options =
              (compile?
                (fileOf context settings
                  (Text.byteOrderMark :: source))
                [Text.byteOrderMark] m).map .ok := by
  cases hOptions : options.fault? with
  | some fault =>
      left
      refine ⟨.options fault, ?_⟩
      unfold transform
      rw [hOptions]
      exact ⟨rfl, rfl⟩
  | none =>
      have hName := isPlainIdentifier_of_fault? hOptions
      have hOne :=
        @transform_of_fault? (Text.byteOrderMark :: source)
          context options hOptions
      have hTwo :=
        @transform_of_fault?
          (Text.byteOrderMark :: Text.byteOrderMark :: source)
          context options hOptions
      rw [Text.occursIn_mark hName] at hOne
      rw [Text.occursIn_mark hName, Text.occursIn_mark hName]
        at hTwo
      by_cases hOccurs :
          Text.occursIn options.decoratorName source = true
      · rw [if_pos hOccurs] at hOne hTwo
        have hSame := @Script.parse_mark source hMark
          (Dialect.ofPath context.path)
        cases hParse :
            Script.parse (Dialect.ofPath context.path)
              source with
        | error e =>
            rw [hParse] at hSame
            exact Or.inl ⟨.malformed context.path e,
              hOne.trans (parsed_of_error hParse),
              hTwo.trans (parsed_of_error hSame)⟩
        | ok m =>
            rw [hParse] at hSame
            exact Or.inr (Or.inr ⟨m, rfl, hOccurs, rfl,
              hOne.trans (parsed_of_ok hParse),
              hTwo.trans (parsed_of_ok hSame)⟩)
      · rw [if_neg hOccurs] at hOne hTwo
        exact Or.inr (Or.inl ⟨hOne, hTwo⟩)

/-
  What still holds of a file with a second mark: it is
  refused for the same reason, it has the same table in
  development, and without components it is handed back.
  The loader is aborted on it just if what the parser finds
  in the text is not cut cleanly in the text with the mark,
  where it is three bytes further on.
-/
structure MarkedTwice
    (source : Text)
    (context : Context)
    (options : Options) : Prop where
  refused :
    ∀ e,
      transform
            (Text.byteOrderMark ::
              Text.byteOrderMark :: source)
            context options = some (.error e) ↔
        transform (Text.byteOrderMark :: source) context
            options = some (.error e)
  table :
    (Settings.resolve context options).production = false →
      ∀ one two,
        transform (Text.byteOrderMark :: source) context
            options = some (.ok one) →
          transform
              (Text.byteOrderMark ::
                Text.byteOrderMark :: source)
              context options = some (.ok two) →
            two.table = one.table
  bare :
    ∀ one,
      transform (Text.byteOrderMark :: source) context
          options = some (.ok one) →
        one.table = [] →
          transform
              (Text.byteOrderMark ::
                Text.byteOrderMark :: source)
              context options = some (.ok one.marked)
  aborted :
    transform
          (Text.byteOrderMark ::
            Text.byteOrderMark :: source)
          context options = none ↔
      ∃ m,
        options.fault? = none ∧
          Text.occursIn options.decoratorName source = true ∧
          Script.parse (Dialect.ofPath context.path) source =
            .ok m ∧
          let f := fileOf context
            (Settings.resolve context options)
            (Text.byteOrderMark :: source)
          ¬ CutsCleanly f (componentsOf f m)

/- In development a second mark changes no table. -/
theorem table_second_mark
    (hMark : ¬ source.IsMarked)
    (hDevelopment :
      (Settings.resolve context options).production = false)
    {one two : Result}
    (hOne :
      transform (Text.byteOrderMark :: source) context
        options = some (.ok one))
    (hTwo :
      transform
        (Text.byteOrderMark :: Text.byteOrderMark :: source)
        context options = some (.ok two)) :
    two.table = one.table := by
  rcases @second_mark_cases source context options hMark with
    ⟨e, hFirst, _⟩ | ⟨hFirst, hSecond⟩ |
      ⟨m, _, _, _, hFirst, hSecond⟩
  · cases hOne.symm.trans hFirst
  · cases hOne.symm.trans hFirst
    cases hTwo.symm.trans hSecond
    rfl
  · rw [hOne, eq_comm, Option.map_eq_some_iff] at hFirst
    rw [hTwo, eq_comm, Option.map_eq_some_iff] at hSecond
    rcases hFirst with ⟨_, hFirst, ⟨⟩⟩
    rcases hSecond with ⟨_, hSecond, ⟨⟩⟩
    have hSettings := settings_fileOf context
      (Settings.resolve context options)
      (Text.byteOrderMark :: source) source
    have hDigest := @digest_fileOf context _ hDevelopment
    rw [table_of_compile? hFirst, table_of_compile? hSecond,
      componentsOf_congr hSettings m]
    exact tableOf_congr hSettings
      ((hDigest _).trans (hDigest _).symm) _

/- A file with two marks and no component is handed back. -/
theorem transform_second_mark
    (hMark : ¬ source.IsMarked)
    {one : Result}
    (hOne :
      transform (Text.byteOrderMark :: source) context
        options = some (.ok one))
    (hTable : one.table = []) :
    transform
        (Text.byteOrderMark :: Text.byteOrderMark :: source)
        context options =
      some (.ok one.marked) := by
  rcases @second_mark_cases source context options hMark with
    ⟨e, hFirst, _⟩ | ⟨hFirst, hSecond⟩ |
      ⟨m, _, _, _, hFirst, hSecond⟩
  · cases hOne.symm.trans hFirst
  · cases hOne.symm.trans hFirst
    exact hSecond
  · rw [hOne, eq_comm, Option.map_eq_some_iff] at hFirst
    rcases hFirst with ⟨_, hFirst, ⟨⟩⟩
    rw [table_of_compile? hFirst] at hTable
    have hNone :
        componentsOf
            (fileOf context
              (Settings.resolve context options) source) m =
          [] := by
      rw [List.eq_nil_iff_forall_not_mem]
      intro c hMem
      exact tableOf_ne_nil hMem hTable
    have hOther :=
      (componentsOf_congr
        (settings_fileOf context
          (Settings.resolve context options)
          (Text.byteOrderMark :: source) source) m).trans hNone
    rw [compile?_of_componentsOf_nil hNone,
      Option.some.injEq] at hFirst
    rw [hSecond, compile?_of_componentsOf_nil hOther,
      ← hFirst]
    rfl

theorem markedTwice
    (hMark : ¬ source.IsMarked) :
    MarkedTwice source context options := by
  have hCases := @second_mark_cases source context options
    hMark
  constructor
  case refused =>
    intro e
    rcases hCases with
      ⟨_, hOne, hTwo⟩ | ⟨hOne, hTwo⟩ |
        ⟨m, _, _, _, hOne, hTwo⟩
    · rw [hOne, hTwo]
    · simp [hOne, hTwo]
    · simp [hOne, hTwo]
  case table =>
    intro hDevelopment one two hOne hTwo
    exact table_second_mark hMark hDevelopment hOne hTwo
  case bare =>
    intro one hOne hTable
    exact transform_second_mark hMark hOne hTable
  case aborted =>
    constructor
    · intro hNone
      rcases hCases with
        ⟨_, _, hTwo⟩ | ⟨_, hTwo⟩ |
          ⟨m, hOptions, hOccurs, hParse, _, hTwo⟩
      · cases hNone.symm.trans hTwo
      · cases hNone.symm.trans hTwo
      · rw [hNone, eq_comm, Option.map_eq_none_iff] at hTwo
        exact ⟨m, hOptions, hOccurs, hParse,
          compile?_eq_none_iff.mp hTwo⟩
    · rintro ⟨m, hOptions, hOccurs, hParse, hClean⟩
      have hName := isPlainIdentifier_of_fault? hOptions
      rw [transform_of_ok hOptions, Option.map_eq_none_iff]
      · exact compile?_eq_none_iff.mpr hClean
      · rw [Text.occursIn_mark hName,
          Text.occursIn_mark hName]
        exact hOccurs
      · rw [splitMark_mark, Script.parse_mark hMark]
        exact hParse

end Marks

/-
  A mark before a file without one is put back before its
  code, and nothing else changes; the edits of both files
  are the same and cut no character, so that the loader is
  not aborted.  A second mark changes neither whether the
  file is refused nor its table, and if that is empty, it
  is put back as well; but the loader may be aborted.
-/
theorem transform_marks
    {source : Text}
    (hMark : ¬ source.IsMarked)
    (context : Context)
    (options : Options) :
    transform (Text.byteOrderMark :: source) context
          options =
        (transform source context options).map
          (Except.map Result.marked) ∧
      (∀ m,
        Script.parse (Dialect.ofPath context.path)
            source = .ok m →
          m.Placed (Source.ofText source) →
            (∃ edits,
              editsOf?
                  (fileOf context
                    (Settings.resolve context options)
                    source)
                  (Component.ofCandidates
                    (Candidate.ofModule options.decoratorName
                      m)) = some edits ∧
                ∀ e ∈ edits, e.Cuts source) ∧
              transform source context options ≠ none) ∧
      MarkedTwice source context options := by
  refine ⟨transform_mark hMark, ?_, markedTwice hMark⟩
  intro m hParse hPlaced
  let f :=
    fileOf context (Settings.resolve context options) source
  have hFile : m.Placed f.source := hPlaced
  refine ⟨exists_cuts_of_placed hFile, ?_⟩
  intro hNone
  rcases transform_eq_none_iff.mp hNone with
    ⟨other, _, _, hOther, hClean⟩
  rw [splitMark_of_not_isMarked hMark] at hOther hClean
  cases hParse.symm.trans hOther
  exact hClean (cutsCleanly_of_placed hFile)

namespace Sample

/- The literal follows a character of two bytes. -/
def accented : Text :=
  "@C(/*é*/{})class A{}".toList

end Sample

theorem transform_marks_sample :
    transform (Text.byteOrderMark :: Sample.source)
          Sample.context Sample.options =
        (transform Sample.source Sample.context
          Sample.options).map (Except.map Result.marked) ∧
      (∃ edits,
        editsOf?
            (fileOf Sample.context
              (Settings.resolve Sample.context
                Sample.options)
              Sample.source)
            (Component.ofCandidates
              (Candidate.ofModule
                Sample.options.decoratorName
                Sample.tree)) = some edits ∧
          ∀ e ∈ edits, e.Cuts Sample.source) ∧
      MarkedTwice Sample.accented Sample.context
        Sample.options ∧
      (transform (Text.byteOrderMark :: Sample.accented)
        Sample.context Sample.options).isSome = true ∧
      transform
          (Text.byteOrderMark ::
            Text.byteOrderMark :: Sample.accented)
          Sample.context Sample.options =
        none := by
  have hParse :
      Script.parse (Dialect.ofPath Sample.context.path)
          Sample.source = .ok Sample.tree :=
    by decide +kernel
  have hMark : ¬ Sample.source.IsMarked := by
    unfold Text.IsMarked
    decide
  have hAccented : ¬ Sample.accented.IsMarked := by
    unfold Text.IsMarked
    decide
  rcases transform_marks hMark Sample.context
      Sample.options with
    ⟨hMarked, hCuts, _⟩
  rcases transform_marks hAccented Sample.context
      Sample.options with
    ⟨_, _, hTwice⟩
  exact ⟨hMarked, (hCuts _ hParse Sample.placed_tree).1,
    hTwice, by decide +kernel, by decide +kernel⟩

end Loader

end ComponentLoader
