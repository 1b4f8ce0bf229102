import Mathlib.Tactic
import ComponentLoader.Proofs.Script.Words
import ComponentLoader.Proofs.Source
import ComponentLoader.Proofs.Text.Keyword
import ComponentLoader.Script.Parser

/-
  How a class that is the default export is read, from
  after `export default` or the decorators that follow it
  up to the name of the class.

  Main declarations:
    * `Script.Lead`
    * `Script.Lead.insert`
    * `Script.Class.ReadAt`
    * `Script.Heading`
    * `Script.Class.ReadIn.exists_heading`
    * `Script.DeclaresDefault`
    * `Script.Lead.declaresDefault`
-/

------------------------------------------------------------
-- Before The Keyword
------------------------------------------------------------

namespace ComponentLoader

namespace Script

/-
  What may stand before the keyword of a class that is the
  default export: what is skipped, and where types are
  read also `abstract`, on the line of the keyword.
-/
inductive Lead : Bool → Text → Prop where
  | plain
      {types newline : Bool}
      {gap : Text}
      (hGap : Skips .outside false gap newline) :
      Lead types gap
  | abstract
      {newline : Bool}
      {gap between : Text}
      (hGap : Skips .outside false gap newline)
      (hBetween : Skips .outside false between false)
      (hEnd : ∀ rest, endsWord (between ++ rest) = true) :
      Lead true (gap ++ ("abstract".toList ++ between))

/- The keyword is no part of a longer word. -/
theorem Lead.isBoundary
    {types : Bool}
    {t : Text}
    (hLead : Lead types t) :
    Text.isBoundary t.getLast? = true := by
  cases hLead with
  | plain hGap => exact hGap.isBoundary
  | @abstract _ gap between _ hBetween hEnd =>
      have hSome : between ≠ [] := by
        rintro rfl
        exact absurd (hEnd ['a']) (by decide)
      rw [← List.append_assoc,
        List.getLast?_append_of_ne_nil _ hSome]
      exact hBetween.isBoundary

/-
  A keyword that stands alone before the one of the class
  is in a comment, and so is what is put after it.
-/
theorem Lead.insert
    {types : Bool}
    {s more t : Text}
    (hLead : Lead types (s ++ Text.classKeyword ++ t))
    (hAlone : Text.isBoundary t.head? = true)
    (hQuiet : ∀ c ∈ more, isQuiet c = true) :
    Lead types (s ++ Text.classKeyword ++ more ++ t) := by
  have hLast :
      (s ++ Text.classKeyword).getLast? = some 's' := by
    rw [List.getLast?_append_of_ne_nil _ (by decide)]
    rfl
  have hEnds : EndsPlain (s ++ Text.classKeyword) :=
    ⟨'s', hLast, by decide⟩
  have hWord :
      ∀ gap : Text,
        s ++ Text.classKeyword ≠
          gap ++ "abstract".toList := by
    intro gap hSame
    rw [hSame, List.getLast?_append_of_ne_nil _ (by decide)]
      at hLast
    exact absurd hLast (by decide)
  generalize hText : s ++ Text.classKeyword ++ t = u at hLead
  cases hLead with
  | plain hGap =>
      subst hText
      exact .plain (hGap.insert hEnds hQuiet)
  | @abstract _ gap between hGap hBetween hEnd =>
      rcases List.append_eq_append_iff.mp hText with
        ⟨rest, rfl, rfl⟩ | ⟨word, hStart, hRest⟩
      · have hLead : Lead true _ :=
          .abstract (hGap.insert hEnds hQuiet) hBetween hEnd
        rw [List.append_assoc] at hLead
        exact hLead
      · rcases List.append_eq_append_iff.mp hRest with
          ⟨later, rfl, rfl⟩ | ⟨tail, hSplit, rfl⟩
        · -- the keyword is in the text after `abstract`
          cases later with
          | nil =>
              rw [List.append_nil] at hStart
              exact absurd hStart (hWord gap)
          | cons c cs =>
              have hLater : EndsPlain (c :: cs) := by
                refine ⟨'s', ?_, by decide⟩
                rw [hStart, ← List.append_assoc,
                  List.getLast?_append_of_ne_nil _
                    (by simp)] at hLast
                exact hLast
              have hLead : Lead true _ :=
                .abstract hGap
                  (hBetween.insert hLater hQuiet)
                  (fun rest => hEnd rest)
              rw [hStart]
              simpa only [List.append_assoc] using hLead
        · -- no letter may follow the keyword
          cases tail with
          | nil =>
              rw [List.append_nil] at hSplit
              rw [← hSplit] at hStart
              exact absurd hStart (hWord gap)
          | cons c cs =>
              have hPlain :
                  "abstract".toList.all Text.isPlainPart =
                    true := by
                decide
              have hPart := List.all_eq_true.mp hPlain c
                (by rw [hSplit]; simp)
              simp [Text.isBoundary, hPart] at hAlone

namespace Parser

variable {α β : Type}

/- A parser goes on where the one before it stopped. -/
theorem run_bind
    {p : Parser α}
    {c m : Cursor}
    {a : α}
    (hFirst : p c = .ok (a, m))
    (q : α → Parser β) :
    (p >>= q) c = q a m := by
  simp [bind, StateT.bind, Except.bind, hFirst]

/- A parser after another starts where that one stopped. -/
theorem exists_of_bind
    {p : Parser α}
    {q : α → Parser β}
    {c c' : Cursor}
    {b : β}
    (hRun : (p >>= q) c = .ok (b, c')) :
    ∃ a m, p c = .ok (a, m) ∧ q a m = .ok (b, c') := by
  cases hFirst : p c with
  | error e =>
      exact absurd hRun (by
        simp [bind, StateT.bind, Except.bind, hFirst])
  | ok r =>
      rw [run_bind hFirst] at hRun
      exact ⟨r.1, r.2, rfl, hRun⟩

end Parser

namespace Grammar

open Script.Parser

/- A word that is there is read. -/
theorem expectWord_eq
    {c : Cursor}
    {w : String}
    (hToken : c.token = .word w.toList false) :
    expectWord w c = .ok ((), c.next) := by
  have hWord : c.token.isWord w = true := by
    simp [hToken, Token.isWord]
  simp only [expectWord, eatWord, bind, StateT.bind,
    Except.bind, hWord, if_true, require]
  rfl

/- A word that is not reserved is the name of a class. -/
theorem className_eq
    {c : Cursor}
    {name : Text}
    (hToken : c.token = .word name false)
    (hName : isReserved name = false)
    (sc : Scope) :
    className sc false c = .ok (some name, c.next) := by
  have hReference : c.token.isReference = true := by
    simp [hToken, Token.isReference, hName]
  have hAwait : name ≠ "await".toList := by
    rintro rfl
    exact absurd hName (by decide)
  have hKeyword : isKeyword name = false := by
    rw [isReserved, Bool.or_eq_false_iff] at hName
    exact hName.1
  have hBindable : isBindable sc c.token = true := by
    unfold isBindable
    rw [hToken, Token.isBinding, hKeyword,
      beq_false_of_ne hAwait]
    rfl
  have hBinding :
      bindingName sc c = .ok (name, c.next) := by
    unfold bindingName wordThat
    rw [hToken] at hBindable ⊢
    simp only [hBindable, if_true]
  unfold className
  simp only [token, bind, StateT.bind, Except.bind,
    Bool.false_eq_true, if_false, hReference, Bool.true_or,
    if_true, hBinding]
  rfl

/- Nothing that follows its name changes it. -/
theorem className_of_classRest
    {r : Rules}
    {sc : Scope}
    {required : Bool}
    {c c' : Cursor}
    {name : Option Text}
    (hRun : classRest r sc required c = .ok (name, c')) :
    ∃ m, className sc.bracketed required c =
      .ok (name, m) := by
  unfold classRest at hRun
  rcases exists_of_bind hRun with ⟨read, m, hName, hRun⟩
  rcases exists_of_bind hRun with ⟨_, _, _, hRun⟩
  rcases exists_of_bind hRun with ⟨_, _, _, hRun⟩
  rcases exists_of_bind hRun with ⟨_, _, _, hRun⟩
  rcases exists_of_bind hRun with ⟨_, _, _, hRun⟩
  rcases exists_of_bind hRun with ⟨_, _, _, hRun⟩
  rcases exists_of_bind hRun with ⟨_, _, _, hRun⟩
  rcases exists_of_bind hRun with ⟨_, _, _, hRun⟩
  cases hRun
  exact ⟨m, hName⟩

/- A class at its keyword, with a name after it. -/
theorem eq_of_defaultClass
    {r : Rules}
    {sc : Scope}
    {lo : Nat}
    {before : Marks}
    {c c' : Cursor}
    {name : Text}
    {shape : Shape}
    (hClass : c.token = .word Text.classKeyword false)
    (hToken :
      ∀ found,
        (Cursor.atPlace false c.fuel found c.there).token =
          .word name false)
    (hName : isReserved name = false)
    (hRun :
      defaultClass r sc lo before c = .ok (shape, c')) :
    shape = .exportDefault (some name)
      { lo := lo, decorators := before.decorators } := by
  let m : Cursor :=
    { c with found := before.inner.reverse ++ c.found }
  have hNote : noteAll before.inner c = .ok ((), m) := rfl
  have hWord : expectWord "class" m = .ok ((), m.next) :=
    expectWord_eq hClass
  have hNext : m.next.token = .word name false :=
    hToken m.found
  unfold defaultClass at hRun
  rw [run_bind hNote, run_bind hWord] at hRun
  rcases exists_of_bind hRun with ⟨read, _, hRest, hRun⟩
  rcases className_of_classRest hRest with ⟨_, hRead⟩
  rw [className_eq hNext hName, Except.ok.injEq,
    Prod.mk.injEq] at hRead
  rw [← hRead.1] at hRun
  cases hRun
  rfl

------------------------------------------------------------
-- The Default Export
------------------------------------------------------------

/- Decorators are read only where one starts. -/
theorem lateMarks_eq
    {c : Cursor}
    (hAt : c.token.isPunct .at = false)
    (r : Rules)
    (sc : Scope)
    (marks : Marks) :
    lateMarks r sc marks c = .ok (marks, c) := by
  unfold lateMarks isAt
  simp only [bind, StateT.bind, Except.bind, hAt]
  rfl

theorem exportDefault_class
    {c : Cursor}
    (hClass : c.token = .word Text.classKeyword false)
    (r : Rules)
    (sc : Scope)
    (marks : Marks) :
    exportDefault r sc marks c =
      defaultClass r sc c.lo marks c := by
  have hAt : c.token.isPunct .at = false := by
    rw [hClass]
    rfl
  have hWord : c.token.isWord "class" = true := by
    rw [hClass]
    rfl
  have hAbstract : c.token.isWord "abstract" = false := by
    rw [hClass]
    rfl
  have hInterface : c.token.isWord "interface" = false := by
    rw [hClass]
    rfl
  have hCursor : cursor c = .ok (c, c) := rfl
  have hPlain :
      plainDefault r sc marks c =
        defaultClass r sc c.lo marks c := by
    unfold plainDefault
    rw [run_bind hCursor, if_pos hWord]
  unfold exportDefault
  rw [run_bind (lateMarks_eq hAt r sc marks),
    run_bind hCursor]
  simp only [hAbstract, hInterface, Bool.and_false,
    Bool.false_and, Bool.false_eq_true, if_false]
  exact hPlain

theorem exportDefault_abstract
    {sc : Scope}
    {c : Cursor}
    (hTypes : sc.types = true)
    (hAbstract : c.token = .word "abstract".toList false)
    (hClass : c.next.token = .word Text.classKeyword false)
    (hLine : c.next.newline = false)
    (r : Rules)
    (marks : Marks) :
    exportDefault r sc marks c =
      defaultClass r sc c.lo marks c.next := by
  have hAt : c.token.isPunct .at = false := by
    rw [hAbstract]
    rfl
  have hWord : c.token.isWord "abstract" = true := by
    rw [hAbstract]
    rfl
  have hNext : c.next.token.isWord "class" = true := by
    rw [hClass]
    rfl
  have hCursor : cursor c = .ok (c, c) := rfl
  have hAdvance : advance c = .ok ((), c.next) := rfl
  unfold exportDefault
  rw [run_bind (lateMarks_eq hAt r sc marks),
    run_bind hCursor]
  simp only [hTypes, hWord, hNext, hLine, Bool.and_self,
    Bool.not_false, if_true]
  rw [run_bind hAdvance]

/- A class that is read starts where its rule says. -/
theorem lo_of_defaultClass
    {r : Rules}
    {sc : Scope}
    {lo : Nat}
    {before : Marks}
    {c c' : Cursor}
    {name : Option Text}
    {decl : Class}
    (hRun :
      defaultClass r sc lo before c =
        .ok (.exportDefault name decl, c')) :
    decl.lo = lo := by
  unfold defaultClass at hRun
  rcases exists_of_bind hRun with ⟨_, _, _, hRun⟩
  rcases exists_of_bind hRun with ⟨_, _, _, hRun⟩
  rcases exists_of_bind hRun with ⟨_, _, _, hRun⟩
  cases hRun
  rfl

/- What is neither a class nor a function is no class. -/
theorem defaultValue_ne
    {r : Rules}
    {sc : Scope}
    {c c' : Cursor}
    {name : Option Text}
    {decl : Class} :
    defaultValue r sc c ≠
      .ok (.exportDefault name decl, c') := by
  intro hRun
  unfold defaultValue at hRun
  rcases exists_of_bind hRun with ⟨_, _, _, hRun⟩
  rcases exists_of_bind hRun with ⟨_, _, _, hRun⟩
  cases hRun

theorem defaultFunction_ne
    {r : Rules}
    {sc : Scope}
    {async : Bool}
    {before : Marks}
    {c c' : Cursor}
    {name : Option Text}
    {decl : Class} :
    defaultFunction r sc async before c ≠
      .ok (.exportDefault name decl, c') := by
  intro hRun
  unfold defaultFunction at hRun
  rcases exists_of_bind hRun with ⟨_, _, _, hRun⟩
  rcases exists_of_bind hRun with ⟨_, _, _, hRun⟩
  split_ifs at hRun
  · rcases exists_of_bind hRun with ⟨_, _, _, hRun⟩
    rcases exists_of_bind hRun with ⟨_, _, _, hRun⟩
    cases hRun
  · rcases exists_of_bind hRun with ⟨_, _, _, hRun⟩
    cases hRun

theorem of_plainDefault
    {r : Rules}
    {sc : Scope}
    {marks : Marks}
    {c c' : Cursor}
    {name : Option Text}
    {decl : Class}
    (hRun :
      plainDefault r sc marks c =
        .ok (.exportDefault name decl, c')) :
    c.token = .word Text.classKeyword false ∧
      decl.lo = c.lo := by
  unfold plainDefault at hRun
  rw [run_bind (p := cursor) rfl] at hRun
  split_ifs at hRun with hClass hAsync hFunction
  · exact ⟨beq_iff_eq.mp hClass, lo_of_defaultClass hRun⟩
  · rcases exists_of_bind hRun with ⟨_, _, _, hRun⟩
    rcases exists_of_bind hRun with ⟨_, _, _, hRun⟩
    exact absurd hRun defaultFunction_ne
  · rcases exists_of_bind hRun with ⟨_, _, _, hRun⟩
    exact absurd hRun defaultFunction_ne
  · exact absurd hRun defaultValue_ne

/- Which tokens a class is read from. -/
theorem of_exportDefault
    {r : Rules}
    {sc : Scope}
    {marks : Marks}
    {c c' : Cursor}
    {name : Option Text}
    {decl : Class}
    (hAt : c.token.isPunct .at = false)
    (hRun :
      exportDefault r sc marks c =
        .ok (.exportDefault name decl, c')) :
    (c.token = .word Text.classKeyword false ∨
      sc.types = true ∧
        c.token = .word "abstract".toList false ∧
        c.next.token = .word Text.classKeyword false ∧
        c.next.newline = false) ∧
      decl.lo = c.lo := by
  have hCursor : cursor c = .ok (c, c) := rfl
  have hAdvance : advance c = .ok ((), c.next) := rfl
  unfold exportDefault at hRun
  rw [run_bind (lateMarks_eq hAt r sc marks),
    run_bind hCursor] at hRun
  split_ifs at hRun with hClass hNext hInterface
  · rw [run_bind hAdvance] at hRun
    simp only [Bool.and_eq_true, Bool.not_eq_true'] at hClass
    rcases hClass with ⟨⟨⟨hTypes, hFirst⟩, hSecond⟩, hLine⟩
    exact ⟨Or.inr ⟨hTypes, beq_iff_eq.mp hFirst,
      beq_iff_eq.mp hSecond, hLine⟩, lo_of_defaultClass hRun⟩
  · rcases exists_of_bind hRun with ⟨_, _, _, hRun⟩
    rcases exists_of_bind hRun with ⟨_, _, _, hRun⟩
    rcases exists_of_bind hRun with ⟨_, _, _, hRun⟩
    cases hRun
  · rcases exists_of_bind hRun with ⟨_, _, _, hRun⟩
    rcases exists_of_bind hRun with ⟨_, _, _, hRun⟩
    cases hRun
  · rcases of_plainDefault hRun with ⟨hToken, hLo⟩
    exact ⟨Or.inl hToken, hLo⟩

end Grammar

------------------------------------------------------------
-- From The Text To The Class
------------------------------------------------------------

/-
  A class without a name that is read as the default
  export from a place on, which is not at a decorator.
-/
def Class.ReadAt
    (decl : Class)
    (types : Bool)
    (p : Place) : Prop :=
  ∃ r sc marks fuel found c,
    sc.types = types ∧
      (Cursor.atPlace false fuel found p).token.isPunct .at =
        false ∧
      Grammar.exportDefault r sc marks
          (Cursor.atPlace false fuel found p) =
        .ok (.exportDefault none decl, c)

/-
  Such a class starts in a text that may stand before its
  keyword.
-/
theorem Class.ReadAt.exists_lead
    {decl : Class}
    {types : Bool}
    {p : Place}
    (hRead : decl.ReadAt types p) :
    ∃ skipped crossed after,
      p.rest =
          skipped ++ crossed ++ Text.classKeyword ++ after ∧
        Lead types (skipped ++ crossed) ∧
        decl.lo = p.pos + Text.size skipped ∧
        endsWord after = true := by
  rcases hRead with
    ⟨r, sc, marks, fuel, found, _, rfl, hAt, hRun⟩
  have hClass :
      Text.isPlainIdentifier Text.classKeyword = true := by
    decide
  rcases Grammar.of_exportDefault hAt hRun with
    ⟨hToken | ⟨hTypes, hToken, hNext, hLine⟩, hLo⟩
  · rcases Cursor.exists_of_token hClass hToken with
      ⟨skipped, crossed, hText, hSkips, hEnd, hStart⟩
    refine ⟨skipped, crossed, _, ?_, .plain hSkips,
      hLo.trans hStart, hEnd⟩
    rw [hText]
    simp only [List.append_assoc]
  · have hWord :
        Text.isPlainIdentifier "abstract".toList = true := by
      decide
    rcases Cursor.exists_of_token hWord hToken with
      ⟨skipped, mark, hText, hSkips, hEnd, hStart⟩
    rcases Cursor.exists_of_token hClass hNext with
      ⟨first, rest, hRest, hBetween, hAfter, _⟩
    rw [hRest] at hText hEnd
    have hSameLine :
        Skips .outside false (first ++ rest) false := by
      have hAny : Skips .outside false (first ++ rest)
          (Cursor.atPlace false fuel found p).next.newline :=
        hBetween
      rw [hLine] at hAny
      exact hAny
    have hLead :
        ∀ more, endsWord (first ++ rest ++ more) = true := by
      intro more
      cases hBoth : first ++ rest with
      | nil =>
          have hNone :
              ∀ t,
                endsWord (Text.classKeyword ++ t) = false :=
            fun _ => rfl
          rw [hBoth, List.nil_append, hNone] at hEnd
          cases hEnd
      | cons c cs =>
          rw [hBoth] at hEnd
          exact hEnd
    refine ⟨skipped,
      mark ++ ("abstract".toList ++ (first ++ rest)), _, ?_,
      ?_, hLo.trans hStart, hAfter⟩
    · rw [hText]
      simp only [List.append_assoc]
    · rw [hTypes, ← List.append_assoc]
      exact .abstract hSkips hSameLine hLead

------------------------------------------------------------
-- Headings
------------------------------------------------------------

/-
  A default export that is read in a source: from a place
  on, before which its decorators end.
-/
structure Class.ReadIn
    (decl : Class)
    (source : Source)
    (types : Bool)
    (p : Place) : Prop where
  place :
    ∃ before, source.text = before ++ p.rest ∧
      p.pos = source.start + Text.size before
  decorators : ∀ d ∈ decl.decorators, d.hi ≤ p.pos
  read : decl.ReadAt types p

/- A source around the keyword of a default export. -/
structure Heading where
  /- The text up to where the class is read from. -/
  before : Text
  /- What is skipped up to the start of the class. -/
  skipped : Text
  /- What stands between this start and the keyword. -/
  crossed : Text
  /- The text after the keyword. -/
  after : Text

/- Whether a class of a source has a heading. -/
structure Heading.Heads
    (h : Heading)
    (decl : Class)
    (source : Source)
    (types : Bool) : Prop where
  text :
    source.text =
      h.before ++ h.skipped ++ h.crossed ++
        Text.classKeyword ++ h.after
  lead : Lead types (h.skipped ++ h.crossed)
  start :
    decl.lo =
      source.start + Text.size (h.before ++ h.skipped)
  decorators :
    ∀ d ∈ decl.decorators,
      d.hi ≤ source.start + Text.size h.before
  ends : endsWord h.after = true

/- A default export that is read has a heading. -/
theorem Class.ReadIn.exists_heading
    {decl : Class}
    {source : Source}
    {types : Bool}
    {p : Place}
    (hRead : decl.ReadIn source types p) :
    ∃ h : Heading, h.Heads decl source types := by
  rcases hRead.place with ⟨before, hText, hPlace⟩
  rcases hRead.read.exists_lead with
    ⟨skipped, crossed, after, hRest, hLead, hLo, hEnd⟩
  refine ⟨{
    before := before
    skipped := skipped
    crossed := crossed
    after := after }, ?_, hLead, ?_, ?_, hEnd⟩
  · rw [hText, hRest]
    simp only [List.append_assoc]
  · rw [hLo, hPlace, Text.size_append, Nat.add_assoc]
  · rw [← hPlace]
    exact hRead.decorators

/- What may follow a word is no part of a plain one. -/
theorem isBoundary_of_endsWord
    {t : Text}
    (hEnd : endsWord t = true) :
    Text.isBoundary t.head? = true := by
  cases t with
  | nil => rfl
  | cons c cs =>
      by_contra hOther
      have hPart : Text.isPlainPart c = true := by
        simpa [Text.isBoundary] using hOther
      simp [endsWord, Text.isIdentPart_of_isPlainPart hPart]
        at hEnd

/- The keyword stands alone from the start of the class. -/
theorem Heading.Heads.standsAlone
    {h : Heading}
    {decl : Class}
    {source : Source}
    {types : Bool}
    (hHeads : h.Heads decl source types) :
    Text.StandsAlone h.crossed h.after := by
  refine ⟨?_, isBoundary_of_endsWord hHeads.ends⟩
  cases hLast : h.crossed.getLast? with
  | none => rfl
  | some last =>
      have hBoundary := hHeads.lead.isBoundary
      rw [List.getLast?_append, hLast] at hBoundary
      exact hBoundary

------------------------------------------------------------
-- From The Class To Its Name
------------------------------------------------------------

/-
  Whether a text after `export default` is read as a class
  of a name, if it can be read.
-/
def DeclaresDefault
    (types : Bool)
    (name : Text)
    (t : Text) : Prop :=
  ∀ r sc marks fuel found pos shape c,
    sc.types = types →
      Grammar.exportDefault r sc marks
          (Cursor.atPlace false fuel found
            { rest := t, pos := pos }) =
        .ok (shape, c) →
      ∃ decl, shape = .exportDefault (some name) decl

/- A class with a name after its keyword has that name. -/
theorem Lead.declaresDefault
    {types : Bool}
    {lead name tail : Text}
    (hLead : Lead types lead)
    (hPlain : Text.isPlainIdentifier name = true)
    (hName : isReserved name = false)
    (hTail : endsWord tail = true) :
    DeclaresDefault types name
      (lead ++ Text.classKeyword ++ ' ' :: name ++ tail) := by
  intro r sc marks fuel found pos shape c hTypes hRun
  have hClass :
      Text.isPlainIdentifier Text.classKeyword = true := by
    decide
  have hSpace : Skips .outside false [' '] false :=
    .blank (by decide) (.done false)
  have hNamed :
      ∀ {p : Place},
        p.rest = ' ' :: (name ++ tail) → ∀ found,
          (Cursor.atPlace false fuel found p).token =
            .word name false := by
    intro p hPlace found
    exact (Cursor.atPlace_word hSpace hPlain hTail hPlace
      fuel found).1
  let p : Place :=
    { rest :=
        lead ++ Text.classKeyword ++ ' ' :: name ++ tail
      pos := pos }
  cases hLead with
  | plain hGap =>
      have hPlace :
          p.rest =
            lead ++ (Text.classKeyword ++
              ' ' :: (name ++ tail)) := by
        simp [p]
      rcases Cursor.atPlace_word hGap hClass rfl hPlace fuel
          found with
        ⟨hToken, hThere, _⟩
      rw [Grammar.exportDefault_class hToken] at hRun
      exact ⟨_, Grammar.eq_of_defaultClass hToken
        (hNamed hThere) hName hRun⟩
  | @abstract _ gap between hGap hBetween hEnd =>
      have hWord :
          Text.isPlainIdentifier "abstract".toList =
            true := by
        decide
      have hPlace :
          p.rest =
            gap ++ ("abstract".toList ++
              (between ++ (Text.classKeyword ++
                ' ' :: (name ++ tail)))) := by
        simp [p]
      rcases Cursor.atPlace_word hGap hWord (hEnd _) hPlace
          fuel found with
        ⟨hToken, hThere, _⟩
      rcases Cursor.atPlace_word hBetween hClass rfl hThere
          fuel found with
        ⟨hNext, hAfter, hLine⟩
      rw [Grammar.exportDefault_abstract hTypes hToken hNext
        hLine] at hRun
      exact ⟨_, Grammar.eq_of_defaultClass hNext
        (hNamed hAfter) hName hRun⟩

end Script

end ComponentLoader
