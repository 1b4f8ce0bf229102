import Mathlib
import ComponentLoader.Component.Candidate
import ComponentLoader.Proofs.Script.Lexer
import ComponentLoader.Script.Cursor

/-
  What a parser makes of a text that does not mention a
  name.  No token is that name, and neither the trees that
  are built nor the namespaces that are passed have a
  decorator of that name.

  Main declarations:
    * `Script.Expr.Lacks`
    * `Script.Namespace.Lacks`
    * `Script.Cursor.Lacks`
    * `Script.Parser.Keeps`
    * `Script.Parser.keeps_iff`
-/

set_option mvcgen.warning false

------------------------------------------------------------
-- Trees Without A Name
------------------------------------------------------------

namespace ComponentLoader

namespace Script

/- A token that is not a name. -/
def Token.Lacks
    (name : Text)
    (t : Token) : Prop :=
  ∀ escaped, t ≠ .word name escaped

/- An expression that neither is a name nor calls it. -/
def Expr.Lacks
    (name : Text) : Expr → Prop
  | .name _ n => n ≠ name
  | .call _ (.name _ n) _ => n ≠ name
  | _ => True

/- A decorator that does not call a name. -/
def Decorator.Lacks
    (name : Text)
    (d : Decorator) : Prop :=
  d.value.Lacks name

/- What is no class with a decorator that calls a name. -/
def Shape.Lacks
    (name : Text) : Shape → Prop
  | .classDecl _ decl => ∀ d ∈ decl.decorators, d.Lacks name
  | .exportClass _ decl =>
      ∀ d ∈ decl.decorators, d.Lacks name
  | .exportDefault _ decl =>
      ∀ d ∈ decl.decorators, d.Lacks name
  | _ => True

/- A namespace without candidates. -/
def Namespace.Lacks
    (name : Text)
    (ns : Namespace) : Prop :=
  ∀ scope, Candidate.ofNamespace name scope ns = []

/- An item that is no candidate and has none inside. -/
structure Item.Lacks
    (name : Text)
    (item : Item) : Prop where
  shape : item.shape.Lacks name
  inner : ∀ ns ∈ item.inner, ns.Lacks name

section Trees

variable {name : Text}

theorem Token.Lacks.of_isWord
    {t : Token}
    (hLacks : t.Lacks name)
    {w : String}
    (hWord : t.isWord w = true) :
    w.toList ≠ name := by
  rintro rfl
  exact hLacks false (by simpa [Token.isWord] using hWord)

@[simp]
theorem Expr.lacks_name
    (span : Span)
    (n : Text) :
    (Expr.name span n).Lacks name ↔ n ≠ name :=
  Iff.rfl

@[simp]
theorem Expr.lacks_form
    (span : Span)
    (form : Form) :
    (Expr.form span form).Lacks name :=
  trivial

theorem Expr.Lacks.callOf?
    {e : Expr}
    (hLacks : e.Lacks name) :
    e.callOf? name = none := by
  unfold Expr.callOf?
  split
  · exact if_neg hLacks
  · rfl

@[simp]
theorem Expr.Lacks.call
    {e : Expr}
    (hLacks : e.Lacks name)
    (span : Span)
    (arguments : List Argument) :
    (Expr.call span e arguments).Lacks name := by
  cases e with
  | name => exact hLacks
  | _ => trivial

@[simp]
theorem Shape.lacks_expression
    (value : Expr) :
    (Shape.expression value).Lacks name :=
  trivial

@[simp]
theorem Shape.lacks_other :
    Shape.other.Lacks name :=
  trivial

theorem Shape.Lacks.inModule
    {shape : Shape}
    (hLacks : shape.Lacks name)
    (scope : List Text) :
    Candidate.ofClass? name scope
      (Candidate.inModule shape) = none := by
  have hClass :
      ∀ decl : Class,
        (∀ d ∈ decl.decorators, d.Lacks name) →
          decl.findCall? name = none := by
    intro decl hDecl
    unfold Class.findCall?
    rw [List.findSome?_eq_none_iff]
    intro d hMem
    exact (hDecl d (List.mem_reverse.mp hMem)).callOf?
  cases shape with
  | classDecl n decl =>
      simp [Candidate.inModule, Candidate.ofClass?,
        hClass decl hLacks]
  | exportClass n decl =>
      simp [Candidate.inModule, Candidate.ofClass?,
        hClass decl hLacks]
  | exportDefault n decl =>
      simp [Candidate.inModule, Candidate.ofClass?,
        hClass decl hLacks]
  | expression value => rfl
  | other => rfl

theorem Shape.Lacks.inNamespace
    {shape : Shape}
    (hLacks : shape.Lacks name)
    (scope : List Text) :
    Candidate.ofClass? name scope
      (Candidate.inNamespace shape) = none := by
  cases shape with
  | exportClass n decl => exact hLacks.inModule scope
  | _ => rfl

theorem ofNamespaces_of_lacks
    {nss : List Namespace}
    (hLacks : ∀ ns ∈ nss, ns.Lacks name)
    (scope : List Text) :
    Candidate.ofNamespaces name scope nss = [] := by
  induction nss with
  | nil => rfl
  | cons ns nss ih =>
      rw [Candidate.ofNamespaces,
        hLacks ns List.mem_cons_self,
        ih fun other hMem =>
          hLacks other (List.mem_cons_of_mem ns hMem)]
      rfl

theorem ofItems_of_lacks
    {items : List Item}
    (hLacks : ∀ item ∈ items, item.Lacks name)
    (scope : List Text) :
    Candidate.ofItems name scope items = [] := by
  induction items with
  | nil => rfl
  | cons item items ih =>
      have hItem := hLacks item List.mem_cons_self
      rcases item with ⟨shape, inner⟩
      have hShape : shape.Lacks name := hItem.shape
      have hInner : ∀ ns ∈ inner, ns.Lacks name :=
        hItem.inner
      rw [Candidate.ofItems, Candidate.ofItem,
        hShape.inNamespace, ofNamespaces_of_lacks hInner,
        ih fun other hMem =>
          hLacks other (List.mem_cons_of_mem _ hMem)]
      rfl

/- A namespace lacks a name if its items do. -/
theorem Namespace.lacks_mk
    {items : List Item}
    (hLacks : ∀ item ∈ items, item.Lacks name)
    (n : Option Text) :
    (Namespace.mk n items).Lacks name := by
  intro scope
  cases n with
  | none => exact ofItems_of_lacks hLacks scope
  | some n => exact ofItems_of_lacks hLacks (scope ++ [n])

/- A module has no candidates if its items lack a name. -/
theorem ofModule_of_lacks
    {m : Module}
    (hLacks : ∀ item ∈ m.items, item.Lacks name) :
    Candidate.ofModule name m = [] := by
  unfold Candidate.ofModule
  rw [List.flatMap_eq_nil_iff]
  intro item hMem
  have hItem := hLacks item hMem
  rw [hItem.shape.inModule]
  exact ofNamespaces_of_lacks hItem.inner []

end Trees

------------------------------------------------------------
-- Cursors
------------------------------------------------------------

/-
  A cursor in a text that does not mention a name: what it
  looks at is an end of the text, its token is not the
  name, and it has passed no candidates.
-/
structure Cursor.Lacks
    (name text : Text)
    (c : Cursor) : Prop where
  unmentioned : Unmentioned name text
  here : c.here.rest <:+ text
  there : c.there.rest <:+ text
  token : c.token.Lacks name
  found : ∀ ns ∈ c.found, ns.Lacks name

namespace Cursor

variable {name text : Text}
variable {c : Cursor}

theorem lacks_atPlace
    (hName : Unmentioned name text)
    (first : Bool)
    (fuel : Nat)
    {found : List Namespace}
    (hFound : ∀ ns ∈ found, ns.Lacks name)
    {p : Place}
    (hPlace : p.rest <:+ text) :
    (atPlace first fuel found p).Lacks name text := by
  let gap := skipGap .outside p.rest p.pos first none
  have hHere : gap.next.rest <:+ text :=
    (skipGap_suffix _ _ _ _ _).trans hPlace
  have hToken := scanned_scanToken first gap.next
  refine ⟨hName, hHere, hToken.rest.trans hHere, ?_, hFound⟩
  intro escaped hWord
  exact hName.not_standsAt hHere
    (hToken.word name escaped hWord)

theorem Lacks.moveTo
    (hLacks : c.Lacks name text)
    {p : Place}
    (hPlace : p.rest <:+ text) :
    (c.moveTo p).Lacks name text :=
  lacks_atPlace hLacks.unmentioned false c.fuel hLacks.found
    hPlace

theorem Lacks.next
    (hLacks : c.Lacks name text) :
    c.next.Lacks name text :=
  hLacks.moveTo hLacks.there

theorem Lacks.failed
    (hLacks : c.Lacks name text) :
    c.failed.Lacks name text := by
  unfold Cursor.failed
  split
  · exact hLacks.next
  · exact hLacks

/- The namespaces passed can be exchanged for others. -/
theorem Lacks.withFound
    (hLacks : c.Lacks name text)
    {found : List Namespace}
    (hFound : ∀ ns ∈ found, ns.Lacks name) :
    Cursor.Lacks name text { c with found := found } :=
  { hLacks with found := hFound }

end Cursor

------------------------------------------------------------
-- Parsers
------------------------------------------------------------

namespace Parser

open Std.Do

variable {α β : Type}

/-
  A parser that goes from a cursor without a name to such
  a cursor, also when it fails, and whose result has some
  property.
-/
abbrev Keeps
    (name text : Text)
    (p : Parser α)
    (post : α → Prop) : Prop :=
  ⦃fun c => ⌜c.Lacks name text⌝⦄ p
    ⦃(fun a c => ⌜post a ∧ c.Lacks name text⌝,
      fun c => ⌜c.Lacks name text⌝, ())⦄

/- The same of a parser whose result does not matter. -/
abbrev Passes
    (name text : Text)
    (p : Parser α) : Prop :=
  ⦃fun c => ⌜c.Lacks name text⌝⦄ p
    ⦃(fun _ c => ⌜c.Lacks name text⌝,
      fun c => ⌜c.Lacks name text⌝, ())⦄

/- What a parser guarantees, by the outcome of its run. -/
theorem wp_apply
    (p : Parser α)
    (post : PostCond α (.arg Cursor (.except Cursor .pure)))
    (c : Cursor) :
    wp⟦p⟧ post c =
      match p c with
      | .ok (a, c') => post.1 a c'
      | .error c' => post.2.1 c' := by
  have hRun := @WP.StateT_run (Except Cursor)
    (.except Cursor .pure) Cursor α c
    (fun r => post.1 r.1 r.2, post.2) _ p
  refine hRun.symm.trans ?_
  change wp⟦p c⟧ _ = _
  cases p c with
  | error e => exact @WP.throw_Except Cursor (α × Cursor) _ _
  | ok r =>
      exact @WP.pure (Except Cursor) (.except Cursor .pure)
        _ _ _ r _

/- An outcome that a parser may have. -/
def Kept
    (name text : Text)
    (post : α → Prop) : Except Cursor (α × Cursor) → Prop
  | .ok (a, c) => post a ∧ c.Lacks name text
  | .error c => c.Lacks name text

section Keeps

variable {name text : Text}
variable {p : Parser α}
variable {post : α → Prop}

theorem keeps_iff :
    Keeps name text p post ↔
      ∀ c, Cursor.Lacks name text c →
        Kept name text post (p c) := by
  unfold Keeps
  simp only [Triple, SPred.entails_cons, wp_apply]
  apply forall_congr'
  intro c
  cases p c with
  | error e => simp [Kept, SPred.entails]
  | ok r => simp [Kept, SPred.entails]

/- A result may be forgotten. -/
theorem Keeps.passes
    (hKeeps : Keeps name text p post) :
    Passes name text p := by
  mvcgen [hKeeps]
  all_goals simp_all

theorem Passes.keeps
    (hPasses : Passes name text p) :
    Keeps name text p fun _ => True := by
  mvcgen [hPasses]
  all_goals simp_all

theorem passes_iff :
    Passes name text p ↔
      ∀ c, Cursor.Lacks name text c →
        Kept name text (fun _ => True) (p c) := by
  rw [← keeps_iff]
  exact ⟨Passes.keeps, Keeps.passes⟩

/- What only looks at the cursor. -/
theorem passes_look
    {look : Cursor → α} :
    Passes name text (fun c => .ok (look c, c)) :=
  passes_iff.mpr fun _ hLacks => ⟨trivial, hLacks⟩

/- What only looks at the cursor. -/
theorem keeps_look
    {look : Cursor → α}
    (hPost : ∀ c, c.Lacks name text → post (look c)) :
    Keeps name text (fun c => .ok (look c, c)) post :=
  keeps_iff.mpr fun c hLacks => ⟨hPost c hLacks, hLacks⟩

/- What reads the token if it passes a test. -/
theorem keeps_eatIf
    {test : Cursor → Bool}
    {post : Bool → Prop}
    (hTrue :
      ∀ c, c.Lacks name text → test c = true → post true)
    (hFalse : post false) :
    Keeps name text
      (fun c =>
        if test c then .ok (true, c.next)
        else .ok (false, c))
      post := by
  apply keeps_iff.mpr
  intro c hLacks
  split
  · next hTest => exact ⟨hTrue c hLacks hTest, hLacks.next⟩
  · exact ⟨hFalse, hLacks⟩

theorem passes_eatIf
    {test : Cursor → Bool} :
    Passes name text
      (fun c =>
        if test c then .ok (true, c.next)
        else .ok (false, c)) :=
  (@keeps_eatIf name text test (fun _ => True)
    (fun _ _ _ => trivial) trivial).passes

theorem keeps_fail :
    Keeps name text (fail : Parser α) post :=
  keeps_iff.mpr fun _ hLacks => hLacks.failed

theorem passes_fail :
    Passes name text (fail : Parser α) :=
  passes_iff.mpr fun _ hLacks => hLacks.failed

/- There is no result of a failure. -/
@[spec]
theorem triple_fail :
    ⦃fun c => ⌜c.Lacks name text⌝⦄ (fail : Parser α)
      ⦃(fun _ _ => ⌜False⌝,
        fun c => ⌜c.Lacks name text⌝, ())⦄ := by
  have hNever :=
    @keeps_fail α name text fun _ => False
  mvcgen [hNever]
  all_goals simp_all

theorem keeps_require
    (condition : Bool) :
    Keeps name text (require condition)
      fun _ => condition = true := by
  unfold require
  split
  · next hTrue =>
      exact keeps_iff.mpr fun c hLacks => ⟨hTrue, hLacks⟩
  · exact keeps_fail

@[spec low]
theorem passes_require
    (condition : Bool) :
    Passes name text (require condition) :=
  (keeps_require condition).passes

------------------------------------------------------------
-- Looks
------------------------------------------------------------

theorem keeps_cursor :
    Keeps name text cursor (Cursor.Lacks name text) :=
  keeps_look fun _ hLacks => hLacks

@[spec low]
theorem passes_cursor :
    Passes name text cursor :=
  passes_look

@[spec]
theorem passes_token :
    Passes name text token :=
  passes_look

@[spec]
theorem passes_peek :
    Passes name text peek :=
  passes_look

@[spec]
theorem passes_position :
    Passes name text position :=
  passes_look

@[spec]
theorem passes_newline :
    Passes name text newline :=
  passes_look

@[spec]
theorem passes_spanFrom
    (lo : Nat) :
    Passes name text (spanFrom lo) :=
  passes_look

@[spec]
theorem passes_isAt
    (punct : Punct) :
    Passes name text (isAt punct) :=
  passes_look

@[spec]
theorem passes_isAtAny
    (puncts : List Punct) :
    Passes name text (isAtAny puncts) :=
  passes_look

@[spec]
theorem passes_isAtWord
    (w : String) :
    Passes name text (isAtWord w) :=
  passes_look

@[spec]
theorem passes_isAtChar
    (ch : Char) :
    Passes name text (isAtChar ch) :=
  passes_look

@[spec]
theorem passes_isAtEnd :
    Passes name text isAtEnd :=
  passes_look

------------------------------------------------------------
-- Moves
------------------------------------------------------------

@[spec]
theorem passes_advance :
    Passes name text advance :=
  passes_iff.mpr fun _ hLacks => ⟨trivial, hLacks.next⟩

@[spec]
theorem passes_moveTo
    {place : Place}
    (hPlace : place.rest <:+ text) :
    Passes name text (moveTo place) :=
  passes_iff.mpr fun _ hLacks =>
    ⟨trivial, hLacks.moveTo hPlace⟩

@[spec]
theorem passes_eat
    (punct : Punct) :
    Passes name text (eat punct) :=
  passes_eatIf

@[spec]
theorem passes_eatAny
    (puncts : List Punct) :
    Passes name text (eatAny puncts) :=
  passes_eatIf

@[spec]
theorem passes_eatWordOf
    (ws : List String) :
    Passes name text (eatWordOf ws) :=
  passes_eatIf

/- A word that is read is not the name. -/
theorem keeps_eatWord
    (w : String) :
    Keeps name text (eatWord w)
      fun read => read = true → w.toList ≠ name :=
  keeps_eatIf
    (fun _ hLacks hWord _ =>
      Token.Lacks.of_isWord hLacks.token hWord)
    (fun hFalse => absurd hFalse (by decide))

@[spec low]
theorem passes_eatWord
    (w : String) :
    Passes name text (eatWord w) :=
  passes_eatIf

@[spec]
theorem passes_expect
    (punct : Punct) :
    Passes name text (expect punct) := by
  mvcgen [expect]

theorem keeps_expectWord
    (w : String) :
    Keeps name text (expectWord w)
      fun _ => w.toList ≠ name := by
  mvcgen [expectWord, keeps_eatWord, keeps_require]
  all_goals simp_all

@[spec low]
theorem passes_expectWord
    (w : String) :
    Passes name text (expectWord w) :=
  (keeps_expectWord w).passes

theorem keeps_wordThat
    (test : Token → Bool) :
    Keeps name text (wordThat test) fun w => w ≠ name := by
  apply keeps_iff.mpr
  intro c hLacks
  unfold wordThat
  split
  · next w escaped hToken =>
      have hWord : w ≠ name := by
        rintro rfl
        exact hLacks.token escaped hToken
      split
      · exact ⟨hWord, hLacks.next⟩
      · exact hLacks
  · exact hLacks.failed

@[spec low]
theorem passes_wordThat
    (test : Token → Bool) :
    Passes name text (wordThat test) :=
  (keeps_wordThat test).passes

@[spec]
theorem passes_reference :
    Passes name text reference :=
  passes_wordThat _

@[spec]
theorem passes_anyWord :
    Passes name text anyWord :=
  passes_wordThat _

@[spec]
theorem passes_stringLiteral :
    Passes name text stringLiteral := by
  apply passes_iff.mpr
  intro c hLacks
  unfold stringLiteral
  split
  · exact ⟨trivial, hLacks.next⟩
  · exact hLacks.failed

@[spec]
theorem passes_eatChar
    (ch : Char) :
    Passes name text (eatChar ch) := by
  apply passes_iff.mpr
  intro c hLacks
  unfold eatChar
  split
  · split
    · exact ⟨trivial, hLacks.moveTo
        ((c.here.skip_suffix 1).trans hLacks.here)⟩
    · exact ⟨trivial, hLacks⟩
  · exact ⟨trivial, hLacks⟩

@[spec]
theorem passes_expectChar
    (ch : Char) :
    Passes name text (expectChar ch) := by
  mvcgen [expectChar]

@[spec]
theorem passes_eatSemicolon :
    Passes name text eatSemicolon := by
  mvcgen [eatSemicolon]

@[spec]
theorem passes_semicolon :
    Passes name text semicolon := by
  mvcgen [semicolon]

@[spec]
theorem passes_anySemicolon :
    Passes name text anySemicolon := by
  mvcgen [anySemicolon]

------------------------------------------------------------
-- Choice
------------------------------------------------------------

theorem keeps_attempt
    (hKeeps : Keeps name text p post) :
    Keeps name text (attempt p)
      fun result => ∀ a, result = some a → post a := by
  apply keeps_iff.mpr
  intro c hLacks
  have hRun := keeps_iff.mp hKeeps c hLacks
  unfold attempt
  split
  · next a c' hOutcome =>
      rw [hOutcome] at hRun
      refine ⟨?_, hRun.2⟩
      intro b hSome
      cases hSome
      exact hRun.1
  · exact ⟨fun a hNone => absurd hNone (by simp), hLacks⟩

@[spec]
theorem passes_wouldParse :
    Passes name text (wouldParse p) := by
  apply passes_iff.mpr
  intro c hLacks
  unfold wouldParse
  split
  · exact ⟨trivial, hLacks⟩
  · exact ⟨trivial, hLacks⟩

theorem keeps_recoverWhere
    {test : Cursor → Bool}
    {instead : Cursor → α}
    (hKeeps : Keeps name text p post)
    (hInstead : ∀ c, post (instead c)) :
    Keeps name text (recoverWhere test instead p) post := by
  apply keeps_iff.mpr
  intro c hLacks
  have hRun := keeps_iff.mp hKeeps c hLacks
  unfold recoverWhere
  split
  · next hOutcome =>
      rw [hOutcome] at hRun
      exact hRun
  · next c' hOutcome =>
      rw [hOutcome] at hRun
      split
      · exact ⟨hInstead c',
          Cursor.Lacks.withFound hRun hLacks.found⟩
      · exact hRun

@[spec]
theorem passes_recover
    (hKeeps : Passes name text p) :
    Passes name text (recover p) := by
  apply passes_iff.mpr
  intro c hLacks
  have hRun := passes_iff.mp hKeeps c hLacks
  unfold recover
  split
  · next hOutcome =>
      rw [hOutcome] at hRun
      exact hRun
  · next hOutcome =>
      rw [hOutcome] at hRun
      exact ⟨trivial,
        Cursor.Lacks.withFound hRun hLacks.found⟩

@[spec]
theorem passes_skim
    (hKeeps : Passes name text p) :
    Passes name text (skim p) := by
  apply passes_iff.mpr
  intro c hLacks
  have hRun := passes_iff.mp hKeeps c hLacks
  unfold skim
  split
  · next hOutcome =>
      rw [hOutcome] at hRun
      exact ⟨trivial, hRun.2.withFound hLacks.found⟩
  · next hOutcome =>
      rw [hOutcome] at hRun
      exact ⟨trivial,
        Cursor.Lacks.withFound hRun hLacks.found⟩

------------------------------------------------------------
-- Repetition
------------------------------------------------------------

/-
  A step that keeps a property of its state keeps it when
  it is repeated.
-/
theorem keeps_iterate
    {step : α → Parser (Option α)}
    (hStep :
      ∀ a, post a →
        Keeps name text (step a)
          fun next => ∀ b, next = some b → post b)
    {a : α}
    (hStart : post a) :
    Keeps name text (iterate step a) post := by
  have hUpTo :
      ∀ fuel a, post a →
        Keeps name text (iterateUpTo step fuel a) post := by
    intro fuel
    induction fuel with
    | zero => exact fun _ _ => keeps_fail
    | succ fuel ih =>
        intro a hPost
        have hNext := hStep a hPost
        mvcgen [iterateUpTo, hNext, ih]
        all_goals simp_all
  mvcgen [iterate, hUpTo]
  all_goals simp_all

theorem keeps_collect
    {step : Parser (Option α)}
    (hStep :
      Keeps name text step
        fun result => ∀ a, result = some a → post a) :
    Keeps name text (collect step)
      fun all => ∀ a ∈ all, post a := by
  have hGather :=
    @keeps_iterate (List α) name text
      fun all => ∀ a ∈ all, post a
  mvcgen [collect, hGather, hStep]
  all_goals simp_all

------------------------------------------------------------
-- Namespaces Passed
------------------------------------------------------------

@[spec]
theorem passes_noteAll
    {nss : List Namespace}
    (hLacks : ∀ ns ∈ nss, ns.Lacks name) :
    Passes name text (noteAll nss) := by
  apply passes_iff.mpr
  intro c hCursor
  refine ⟨trivial, hCursor.withFound ?_⟩
  intro ns hMem
  rcases List.mem_append.mp hMem with hNew | hOld
  · exact hLacks ns (List.mem_reverse.mp hNew)
  · exact hCursor.found ns hOld

@[spec]
theorem passes_note
    {ns : Namespace}
    (hLacks : ns.Lacks name) :
    Passes name text (note ns) :=
  @passes_noteAll name text [ns] (by simpa using hLacks)

/- What is passed inside is handed out. -/
theorem keeps_isolate
    (hKeeps : Keeps name text p post) :
    Keeps name text (isolate p)
      fun result =>
        post result.1 ∧ ∀ ns ∈ result.2, ns.Lacks name := by
  apply keeps_iff.mpr
  intro c hLacks
  have hRun := keeps_iff.mp hKeeps
    { c with found := [] } (hLacks.withFound (by simp))
  unfold isolate
  split
  · next e hOutcome =>
      rw [hOutcome] at hRun
      exact Cursor.Lacks.withFound hRun hLacks.found
  · next a c' hOutcome =>
      rw [hOutcome] at hRun
      refine ⟨⟨hRun.1, ?_⟩, hRun.2.withFound hLacks.found⟩
      intro ns hMem
      exact hRun.2.found ns (List.mem_reverse.mp hMem)

------------------------------------------------------------
-- Results That Do Not Matter
------------------------------------------------------------

@[spec low]
theorem passes_attempt
    (hPasses : Passes name text p) :
    Passes name text (attempt p) :=
  (keeps_attempt hPasses.keeps).passes

@[spec low]
theorem passes_iterate
    {step : α → Parser (Option α)}
    (hPasses : ∀ a, Passes name text (step a))
    (a : α) :
    Passes name text (iterate step a) := by
  have hStep :
      ∀ a, True →
        Keeps name text (step a)
          fun next => ∀ b, next = some b → True := by
    intro a _
    mvcgen [hPasses]
    all_goals simp_all
  exact (keeps_iterate hStep trivial).passes

@[spec low]
theorem passes_collect
    {step : Parser (Option α)}
    (hPasses : Passes name text step) :
    Passes name text (collect step) := by
  mvcgen [collect, hPasses]

@[spec]
theorem passes_repeatWhile
    {step : Parser Bool}
    (hPasses : Passes name text step) :
    Passes name text (repeatWhile step) := by
  mvcgen [repeatWhile, hPasses]

@[spec low]
theorem passes_commaList
    {close : Punct}
    (hPasses : Passes name text p) :
    Passes name text (commaList close p) := by
  mvcgen [commaList, hPasses]

@[spec low]
theorem passes_isolate
    (hPasses : Passes name text p) :
    Keeps name text (isolate p)
      fun result => ∀ ns ∈ result.2, ns.Lacks name := by
  have hIsolated := keeps_isolate hPasses.keeps
  mvcgen [hIsolated]
  all_goals simp_all

end Keeps

end Parser

end Script

end ComponentLoader
