import Mathlib.Tactic
import ComponentLoader.Component.Basic
import ComponentLoader.Proofs.Component.Addresses
import ComponentLoader.Proofs.Script.Placement

/-
  Where the components of a script stand.  Classes found
  at different addresses stand apart, and in the order of
  their addresses unless these part at a namespace.  A
  component takes up the text from its literal to where it
  may get a name.

  Main declarations:
    * `Candidate.pairwise_apart`
    * `Candidate.pairwise_lo_iff`
    * `Component.Stands`
    * `Component.exists_literal_inside`
    * `Component.exists_stands`
    * `Component.pairwise_ofCandidates_before`
-/

------------------------------------------------------------
-- Candidates
------------------------------------------------------------

namespace ComponentLoader

namespace Candidate

/- A decorated class in a region. -/
structure Placed
    (c : Candidate)
    (source : Source)
    (decorator : Text)
    (region : Span) : Prop where
  decl : c.decl.Placed source region
  call : c.decl.findCall? decorator = some c.call

variable {source : Source}
variable {decorator : Text}

/- A class starts in its region. -/
theorem Placed.bounds
    {c : Candidate}
    {region : Span}
    (hPlaced : c.Placed source decorator region) :
    region.lo ≤ c.decl.lo ∧ c.decl.lo < region.hi := by
  refine ⟨hPlaced.decl.inside, ?_⟩
  rcases hPlaced.decl.keyword with
    ⟨before, after, _, _, hLo, _, hHi⟩
  rw [Text.size_append] at hHi
  omega

------------------------------------------------------------
-- The Search
------------------------------------------------------------

theorem placed_of_inModule
    {region : Span}
    {shape : Script.Shape}
    (hShape : shape.Placed source region)
    (name : Option Text)
    (decl : Script.Class)
    (hClass : inModule shape = some (name, decl)) :
    decl.Placed source region := by
  cases shape with
  | classDecl _ _ =>
      simp only [inModule, Option.some.injEq,
        Prod.mk.injEq] at hClass
      exact hClass.2 ▸ hShape
  | exportClass _ _ =>
      simp only [inModule, Option.some.injEq,
        Prod.mk.injEq] at hClass
      exact hClass.2 ▸ hShape
  | exportDefault _ _ =>
      simp only [inModule, Option.some.injEq,
        Prod.mk.injEq] at hClass
      exact hClass.2 ▸ hShape
  | expression _ => exact absurd hClass (by simp [inModule])
  | other => exact absurd hClass (by simp [inModule])

/- What may be a component in a namespace may in a module. -/
theorem inModule_of_inNamespace
    {shape : Script.Shape}
    {found : Option Text × Script.Class}
    (hClass : inNamespace shape = some found) :
    inModule shape = some found := by
  cases shape with
  | exportClass _ _ => exact hClass
  | classDecl _ _ =>
      exact absurd hClass (by simp [inNamespace])
  | exportDefault _ _ =>
      exact absurd hClass (by simp [inNamespace])
  | expression _ =>
      exact absurd hClass (by simp [inNamespace])
  | other => exact absurd hClass (by simp [inNamespace])

/- A class that is found in an item stands in its region. -/
theorem placed_of_foundIn
    {rule : Rule}
    {scope : List Text}
    {item : Script.Item}
    {address : Address}
    {c : Candidate}
    {region : Span}
    (hFound : FoundIn decorator rule scope item address c)
    (hRule :
      ∀ shape found, rule shape = some found →
        inModule shape = some found)
    (hPlaced : item.Placed source region) :
    ∃ r, r.Inside region ∧ c.Placed source decorator r := by
  induction hFound generalizing region with
  | own hShape hCall =>
      refine ⟨region, .refl region, ?_, hCall⟩
      exact placed_of_inModule hPlaced.1 _ _
        (hRule _ _ hShape)
  | inner _ hNamespace hItem _ ih =>
      rcases hPlaced with
        ⟨_, regions, hInside, _, hNamespaces⟩
      rcases hNamespaces.get hNamespace with
        ⟨outer, hOuter, inside, hParts, _, hItems⟩
      rcases hItems.get hItem with ⟨part, hPart, hThere⟩
      rcases ih (fun _ _ => inModule_of_inNamespace) hThere
        with ⟨r, hR, hC⟩
      have hInItem := hR.trans
        (hParts part (List.mem_of_getElem? hPart))
      exact ⟨r, hInItem.trans
        (hInside outer (List.mem_of_getElem? hOuter)), hC⟩

/-
  Addresses in one item that part at a namespace: they go
  through the same namespaces and items up to there.
-/
inductive PartInItem : Address → Address → Prop where
  | here
      {i j : Nat}
      {a b : Address}
      (hLt : i < j) :
      PartInItem (i :: a) (j :: b)
  | there
      {i j : Nat}
      {a b : Address}
      (hPart : PartInItem a b) :
      PartInItem (i :: j :: a) (i :: j :: b)

theorem PartInItem.lt
    {a b : Address}
    (hPart : PartInItem a b) :
    a < b := by
  induction hPart with
  | here hLt => exact List.cons_lt_cons_iff.mpr (Or.inl hLt)
  | there _ ih =>
      rw [List.cons_lt_cons_iff, List.cons_lt_cons_iff]
      exact Or.inr ⟨rfl, Or.inr ⟨rfl, ih⟩⟩

/-
  Two classes in regions that are apart.  They are in
  order unless a condition holds.
-/
def ApartUnless
    (source : Source)
    (decorator : Text)
    (condition : Prop)
    (c d : Candidate) : Prop :=
  ∃ r s,
    c.Placed source decorator r ∧
      d.Placed source decorator s ∧
      (r.Before s ∨ r.Apart s ∧ condition)

theorem ApartUnless.imp
    {P Q : Prop}
    {c d : Candidate}
    (hApart : ApartUnless source decorator P c d)
    (hImp : P → Q) :
    ApartUnless source decorator Q c d := by
  rcases hApart with ⟨r, s, hC, hD, hSides⟩
  exact ⟨r, s, hC, hD, hSides.imp id (And.imp id hImp)⟩

/- Classes found in parts that are apart. -/
theorem apartUnless_of_foundIn
    {rule rule' : Rule}
    {scope scope' : List Text}
    {x y : Script.Item}
    {a b : Address}
    {c d : Candidate}
    {r s : Span}
    {P : Prop}
    (hFirst : FoundIn decorator rule scope x a c)
    (hSecond : FoundIn decorator rule' scope' y b d)
    (hRule :
      ∀ shape found, rule shape = some found →
        inModule shape = some found)
    (hRule' :
      ∀ shape found, rule' shape = some found →
        inModule shape = some found)
    (hX : x.Placed source r)
    (hY : y.Placed source s)
    (hSides : r.Before s ∨ r.Apart s ∧ P) :
    ApartUnless source decorator P c d := by
  rcases placed_of_foundIn hFirst hRule hX with
    ⟨r', hR, hC⟩
  rcases placed_of_foundIn hSecond hRule' hY with
    ⟨s', hS, hD⟩
  refine ⟨r', s', hC, hD, ?_⟩
  rcases hSides with hBefore | ⟨hApart, hP⟩
  · exact Or.inl (hBefore.mono hR hS)
  · exact Or.inr ⟨hApart.mono hR hS, hP⟩

/- One thing before another, in the order of their regions. -/
theorem rel_of_lt
    {regions : List Span}
    {R : Span → Span → Prop}
    {i j : Nat}
    {r s : Span}
    (hPairwise : regions.Pairwise R)
    (hFirst : regions[i]? = some r)
    (hSecond : regions[j]? = some s)
    (hLt : i < j) :
    R r s := by
  rcases List.getElem?_eq_some_iff.mp hFirst with ⟨hI, rfl⟩
  rcases List.getElem?_eq_some_iff.mp hSecond with ⟨hJ, rfl⟩
  exact List.pairwise_iff_getElem.mp hPairwise i j hI hJ hLt

/-
  Two classes found in one item.  Items of a namespace are
  in order, so that only namespaces may not be.
-/
theorem apartUnless_partInItem
    {rule : Rule}
    {scope : List Text}
    {item : Script.Item}
    {a b : Address}
    {c d : Candidate}
    {region : Span}
    (hFirst : FoundIn decorator rule scope item a c)
    (hSecond : FoundIn decorator rule scope item b d)
    (hLt : a < b)
    (hPlaced : item.Placed source region) :
    ApartUnless source decorator (PartInItem a b) c d := by
  induction hFirst generalizing b region with
  | own hShape hCall =>
      cases hSecond with
      | own _ _ => exact absurd hLt (List.lt_irrefl [])
      | inner hNone _ _ _ =>
          exact absurd hNone
            (not_findCall?_eq_none hShape hCall)
  | @inner rule scope shape inner name items x i j a c
      hNone hNamespace hItem hFound ih =>
      cases hSecond with
      | own hShape hCall =>
          exact absurd hNone
            (not_findCall?_eq_none hShape hCall)
      | @inner _ _ _ _ name' items' y i' j' b _
          _ hNamespace' hItem' hFound' =>
          rcases hPlaced with
            ⟨_, regions, _, hApart, hNamespaces⟩
          rcases hNamespaces.get hNamespace with
            ⟨outer, hOuter, inside, hParts, hBefore, hItems⟩
          rcases hItems.get hItem with ⟨r, hR, hX⟩
          rcases List.cons_lt_cons_iff.mp hLt with
            hLess | ⟨rfl, hLess⟩
          · rcases hNamespaces.get hNamespace' with
              ⟨outer', hOuter', inside', hParts', _, hItems'⟩
            rcases hItems'.get hItem' with ⟨s, hS, hY⟩
            have hSides :=
              rel_of_lt hApart hOuter hOuter' hLess
            refine apartUnless_of_foundIn hFound hFound'
              (fun _ _ => inModule_of_inNamespace)
              (fun _ _ => inModule_of_inNamespace) hX hY
              (Or.inr ⟨?_, .here hLess⟩)
            exact hSides.mono
              (hParts r (List.mem_of_getElem? hR))
              (hParts' s (List.mem_of_getElem? hS))
          · rw [hNamespace, Option.some.injEq,
              Script.Namespace.mk.injEq] at hNamespace'
            rcases hNamespace' with ⟨rfl, rfl⟩
            rcases List.cons_lt_cons_iff.mp hLess with
              hEarlier | ⟨rfl, hTail⟩
            · rcases hItems.get hItem' with ⟨s, hS, hY⟩
              have hSides :=
                rel_of_lt hBefore hR hS hEarlier
              exact apartUnless_of_foundIn hFound hFound'
                (fun _ _ => inModule_of_inNamespace)
                (fun _ _ => inModule_of_inNamespace) hX hY
                (Or.inl hSides)
            · rw [hItem, Option.some.injEq] at hItem'
              subst hItem'
              exact (ih hFound' hTail hX).imp .there

/- Addresses in one item of a module that part there. -/
def PartAtNamespace
    (a b : Address) : Prop :=
  ∃ k inside inside', a = k :: inside ∧ b = k :: inside' ∧
    PartInItem inside inside'

theorem PartAtNamespace.lt
    {a b : Address}
    (hPart : PartAtNamespace a b) :
    a < b := by
  rcases hPart with ⟨k, x, y, rfl, rfl, hPart⟩
  exact List.cons_lt_cons_iff.mpr (Or.inr ⟨rfl, hPart.lt⟩)

/- Two classes found in a module. -/
theorem apartUnless_of_found
    {m : Script.Module}
    {a b : Address}
    {c d : Candidate}
    (hPlaced : m.Placed source)
    (hLt : a < b)
    (hFirst : Found decorator m a c)
    (hSecond : Found decorator m b d) :
    ApartUnless source decorator (PartAtNamespace a b)
      c d := by
  rcases hPlaced with ⟨regions, hBefore, hItems⟩
  rcases hFirst with ⟨k, x, a, rfl, hGet, hFound⟩
  rcases hSecond with ⟨l, y, b, rfl, hGet', hFound'⟩
  rcases hItems.get hGet with ⟨r, hR, hX⟩
  rcases List.cons_lt_cons_iff.mp hLt with
    hLess | ⟨rfl, hLess⟩
  · rcases hItems.get hGet' with ⟨s, hS, hY⟩
    have hSides := rel_of_lt hBefore hR hS hLess
    exact apartUnless_of_foundIn hFound hFound'
      (fun _ _ => id) (fun _ _ => id) hX hY (Or.inl hSides)
  · rw [hGet, Option.some.injEq] at hGet'
    subst hGet'
    have hApart :=
      apartUnless_partInItem hFound hFound' hLess hX
    exact hApart.imp fun hPart =>
      ⟨k, a, b, rfl, rfl, hPart⟩

/- Any two classes of a module are in regions apart. -/
def Apart
    (source : Source)
    (decorator : Text)
    (c d : Candidate) : Prop :=
  ∃ r s,
    c.Placed source decorator r ∧
      d.Placed source decorator s ∧ r.Apart s

theorem pairwise_apart
    {m : Script.Module}
    (hPlaced : m.Placed source) :
    (ofModule decorator m).Pairwise
      (Apart source decorator) := by
  rw [(enumerates_ofModule m).pairwise_iff]
  intro a b c d hLt hFirst hSecond
  rcases apartUnless_of_found hPlaced hLt hFirst hSecond
    with ⟨r, s, hC, hD, hBefore | ⟨hApart, _⟩⟩
  · exact ⟨r, s, hC, hD, Or.inl hBefore⟩
  · exact ⟨r, s, hC, hD, hApart⟩

theorem exists_placed
    {m : Script.Module}
    {c : Candidate}
    (hPlaced : m.Placed source)
    (hMem : c ∈ ofModule decorator m) :
    ∃ region, c.Placed source decorator region := by
  rcases hPlaced with ⟨regions, _, hItems⟩
  rcases ((enumerates_ofModule m).mem_iff c).mp hMem with
    ⟨_, k, item, rest, _, hGet, hFound⟩
  rcases hItems.get hGet with ⟨region, _, hItem⟩
  rcases placed_of_foundIn hFound (fun _ _ => id) hItem with
    ⟨r, _, hC⟩
  exact ⟨r, hC⟩

------------------------------------------------------------
-- Document Order
------------------------------------------------------------

/-
  The namespaces inside an item are searched in an order
  in which the classes found in them stand.
-/
def NamespacesInOrder
    (decorator : Text)
    (m : Script.Module) : Prop :=
  ∀ a b c d, PartAtNamespace a b →
    Found decorator m a c → Found decorator m b d →
    c.decl.lo < d.decl.lo

/-
  Classes are found in the order in which they stand just
  if namespaces inside items are searched in order.
-/
theorem pairwise_lo_iff
    {m : Script.Module}
    (hPlaced : m.Placed source) :
    (ofModule decorator m).Pairwise
        (fun c d => c.decl.lo < d.decl.lo) ↔
      NamespacesInOrder decorator m := by
  rw [(enumerates_ofModule m).pairwise_iff]
  constructor
  · intro hAll a b c d hPart hFirst hSecond
    exact hAll a b c d hPart.lt hFirst hSecond
  · intro hOrder a b c d hLt hFirst hSecond
    rcases apartUnless_of_found hPlaced hLt hFirst hSecond
      with ⟨r, s, hC, hD, hBefore | ⟨_, hPart⟩⟩
    · have hEnd := hC.bounds.2
      have hStart := hD.bounds.1
      unfold Span.Before at hBefore
      omega
    · exact hOrder a b c d hPart hFirst hSecond

end Candidate

------------------------------------------------------------
-- Components
------------------------------------------------------------

namespace Component

/-
  A component is a candidate with a literal, and has the
  place of the candidate for its ordinal.
-/
theorem mem_ofCandidates_iff
    {cs : List Candidate}
    {c : Component} :
    c ∈ ofCandidates cs ↔
      cs[c.ordinal]? = some c.candidate ∧
        c.candidate.call.literal? = some c.literal := by
  unfold ofCandidates
  rw [List.mem_filterMap]
  constructor
  · rintro ⟨⟨candidate, i⟩, hCandidate, hComponent⟩
    rw [ofCandidate?, Option.map_eq_some_iff] at hComponent
    rcases hComponent with ⟨literal, hLiteral, rfl⟩
    rw [List.mk_mem_zipIdx_iff_getElem?] at hCandidate
    exact ⟨hCandidate, hLiteral⟩
  · rintro ⟨hCandidate, hLiteral⟩
    refine ⟨(c.candidate, c.ordinal), ?_, ?_⟩
    · rw [List.mk_mem_zipIdx_iff_getElem?]
      exact hCandidate
    · rw [ofCandidate?, hLiteral]
      rfl

/- What holds of numbered candidates pair by pair. -/
theorem pairwise_ofCandidates_zipIdx
    {R : Candidate × Nat → Candidate × Nat → Prop}
    {cs : List Candidate}
    (hPairs : cs.zipIdx.Pairwise R) :
    (ofCandidates cs).Pairwise fun a b =>
      R (a.candidate, a.ordinal) (b.candidate, b.ordinal) := by
  refine List.Pairwise.filterMap _ ?_ hPairs
  intro a b hR c hC d hD
  rw [ofCandidate?, Option.map_eq_some_iff] at hC hD
  rcases hC with ⟨_, _, rfl⟩
  rcases hD with ⟨_, _, rfl⟩
  exact hR

theorem pairwise_ofCandidates
    {R : Candidate → Candidate → Prop}
    {cs : List Candidate}
    (hPairs : cs.Pairwise R) :
    (ofCandidates cs).Pairwise
      fun a b => R a.candidate b.candidate := by
  have hNumbered :
      cs.zipIdx.Pairwise fun a b => R a.1 b.1 := by
    have hFirst : cs.zipIdx.map Prod.fst = cs :=
      List.zipIdx_map_fst 0 cs
    rw [← List.pairwise_map, hFirst]
    exact hPairs
  exact pairwise_ofCandidates_zipIdx hNumbered

/- The components are in the order of their ordinals. -/
theorem pairwise_ordinal
    (cs : List Candidate) :
    (ofCandidates cs).Pairwise
      fun a b => a.ordinal < b.ordinal := by
  have hNumbered :
      cs.zipIdx.Pairwise fun a b => a.2 < b.2 := by
    have hSecond : cs.zipIdx.map Prod.snd =
        List.range' 0 cs.length := List.zipIdx_map_snd 0 cs
    rw [← List.pairwise_map, hSecond]
    exact List.pairwise_lt_range'
  exact pairwise_ofCandidates_zipIdx hNumbered

/- The literal of a candidate is in one of its decorators. -/
theorem exists_decorator
    {c : Script.Class}
    {decorator : Text}
    {call : Script.Call}
    {literal : Literal}
    (hCall : c.findCall? decorator = some call)
    (hLiteral : call.literal? = some literal) :
    ∃ d ∈ c.decorators, ∃ callee e,
      d.value = .call call.span callee call.arguments ∧
        .item e ∈ call.arguments ∧
        e.span = literal.span := by
  unfold Script.Class.findCall? at hCall
  rcases List.exists_of_findSome?_eq_some hCall with
    ⟨d, hMem, hDecorator⟩
  refine ⟨d, List.mem_reverse.mp hMem, ?_⟩
  unfold Script.Decorator.call? Script.Expr.callOf?
    at hDecorator
  split at hDecorator
  · next span at' name arguments hValue =>
      split at hDecorator
      · rw [Option.some.injEq] at hDecorator
        subst hDecorator
        unfold Script.Call.literal? at hLiteral
        split at hLiteral
        · next value more hArguments =>
            simp only at hArguments
            refine ⟨_, value, hValue, ?_, ?_⟩
            · simp [hArguments]
            · unfold Script.Expr.literal? at hLiteral
              split at hLiteral
              · rw [Option.some.injEq] at hLiteral
                subst hLiteral
                rfl
              · exact absurd hLiteral (by simp)
        · exact absurd hLiteral (by simp)
      · exact absurd hDecorator (by simp)
  · exact absurd hDecorator (by simp)

/- Where the keyword is looked for: after all decorators. -/
theorem keywordStart_spec
    (c : Script.Class) :
    (keywordStart c = c.lo ∨
        ∃ d ∈ c.decorators, keywordStart c = d.hi) ∧
      c.lo ≤ keywordStart c ∧
      ∀ d ∈ c.decorators, d.hi ≤ keywordStart c := by
  rcases c with ⟨lo, decorators⟩
  unfold keywordStart
  simp only
  induction decorators generalizing lo with
  | nil => simp
  | cons d ds ih =>
      simp only [List.map_cons, List.foldl_cons]
      rcases ih (max lo d.hi) with ⟨hEnd, hLo, hRest⟩
      refine ⟨?_, ?_, ?_⟩
      · rcases hEnd with hEq | ⟨e, hMem, hEq⟩
        · rcases Nat.le_total lo d.hi with hLe | hLe
          · rw [Nat.max_eq_right hLe] at hEq ⊢
            exact Or.inr ⟨d, by simp, hEq⟩
          · rw [Nat.max_eq_left hLe] at hEq ⊢
            exact Or.inl hEq
        · exact Or.inr ⟨e, List.mem_cons_of_mem d hMem, hEq⟩
      · omega
      · intro e hMem
        rcases List.mem_cons.mp hMem with rfl | hMem
        · omega
        · exact hRest e hMem

/- The byte offset where a component starts. -/
def start
    (c : Component)
    (f : File) : Nat :=
  (f.source.range c.literal.span).1

/- The byte offset where it may get a name. -/
def stop
    (c : Component)
    (f : File) : Nat :=
  match c.nameEdit? f with
  | some (e :: _) => e.start
  | _ => (f.source.range c.literal.span).2

/- The edit that puts the name of a class after a text. -/
def nameAfter
    (c : Component)
    (f : File)
    (t : Text) : Edit :=
  { start := t.size
    stop := t.size
    text := ' ' :: c.name f }

/-
  Where a component stands: `literal` is the text of its
  literal, and the end of `between` is where it gets a
  name, if it is to get one.
-/
structure Stands
    (c : Component)
    (f : File)
    (before literal between after : Text) : Prop where
  text :
    f.source.text = before ++ literal ++ between ++ after
  span : c.literal.span = f.source.spanOf before literal
  ne_nil : literal ≠ []
  name :
    c.nameEdit? f =
      some [c.nameAfter f (before ++ literal ++ between)]

section Standing

variable {c : Component}
variable {f : File}
variable {before literal between after : Text}

theorem Stands.range_eq
    (hStands : c.Stands f before literal between after) :
    f.source.range c.literal.span =
      (Text.size before,
        Text.size (before ++ literal)) := by
  rw [hStands.span, Text.size_append]
  apply Source.range_spanOf
  rw [hStands.text, List.append_assoc _ between]

theorem Stands.start_eq
    (hStands : c.Stands f before literal between after) :
    c.start f = Text.size before := by
  rw [start, hStands.range_eq]

theorem Stands.stop_eq
    (hStands : c.Stands f before literal between after) :
    c.stop f =
      Text.size (before ++ literal ++ between) := by
  rw [stop, hStands.name]
  rfl

/- A literal takes some text. -/
theorem Stands.size_lt
    (hStands : c.Stands f before literal between after) :
    Text.size before < Text.size (before ++ literal) := by
  have hSize : Text.size literal ≠ 0 := fun hZero =>
    hStands.ne_nil (Text.eq_nil_of_size hZero)
  rw [Text.size_append]
  omega

end Standing

/- The keyword is looked for at a position of the source. -/
theorem hasPosition_keywordStart
    {decl : Script.Class}
    {source : Source}
    {region : Span}
    (hPlaced : decl.Placed source region) :
    source.HasPosition (keywordStart decl) := by
  rcases (keywordStart_spec decl).1 with
    hEq | ⟨d, hMem, hEq⟩
  · rw [hEq]
    exact hPlaced.start
  · rw [hEq]
    exact (hPlaced.decorators d hMem).position

/- A name is put after the keyword that is found first. -/
theorem nameEdit?_of_findKeyword
    {c : Component}
    {f : File}
    {before rest found : Text}
    (hText : f.source.text = before ++ rest)
    (hStart :
      keywordStart c.candidate.decl =
        f.source.start + Text.size before)
    (hFind :
      Text.findKeyword Text.classKeyword rest =
        some (Text.size found)) :
    c.nameEdit? f = some [c.nameAfter f (before ++ found)] := by
  have hOffset :
      f.source.offset (keywordStart c.candidate.decl) =
        Text.size before := by
    rw [hStart]
    exact Source.offset_append hText
  have hSplit :
      f.source.text.splitAt? (Text.size before) =
        some (before, rest) := by
    rw [hText]
    exact Text.splitAt?_append before rest
  have hWord : "class".toList = Text.classKeyword := by
    decide
  unfold nameEdit? nameAfter
  simp only [hOffset, hSplit, hWord, hFind,
    Text.size_append]

/- A class gets its name after a keyword inside of it. -/
theorem exists_nameEdit?
    {c : Component}
    {f : File}
    {region : Span}
    (hPlaced : c.candidate.decl.Placed f.source region) :
    ∃ before found after,
      f.source.text = before ++ found ++ after ∧
        keywordStart c.candidate.decl =
          f.source.start + Text.size before ∧
        f.source.start + Text.size (before ++ found) <
          region.hi ∧
        c.nameEdit? f =
          some [c.nameAfter f (before ++ found)] := by
  rcases keywordStart_spec c.candidate.decl with
    ⟨hEnd, _, _⟩
  rcases hasPosition_keywordStart hPlaced with
    ⟨before, rest, hText, hStart⟩
  rcases hPlaced.keyword with
    ⟨start, tail, hKeyword, hAlone, hLo, hHi, hLast⟩
  have hOrder : Text.size before ≤ Text.size start := by
    rcases hEnd with hEq | ⟨d, hMem, hEq⟩
    · omega
    · have hDecorator := hHi d hMem
      omega
  rw [List.append_assoc] at hKeyword
  rcases Text.exists_append_of_size_le
      (hText.symm.trans hKeyword) hOrder with
    ⟨between, hBetween, hRest⟩
  have hStands : Text.StandsAlone between tail := by
    refine ⟨?_, hAlone.2⟩
    cases hCase : between.getLast? with
    | none => rfl
    | some last =>
        have hSame := hAlone.1
        rw [hBetween, List.getLast?_append, hCase] at hSame
        exact hSame
  rcases Text.findKeyword_class hStands with
    ⟨found, after, hFound, hFind, hSize⟩
  rw [List.append_assoc] at hFound hFind
  rw [← hRest] at hFound hFind
  refine ⟨before, found, after, ?_, hStart, ?_, ?_⟩
  · rw [hText, hFound, List.append_assoc]
  · rw [hBetween] at hLast
    simp only [Text.size_append] at hSize hLast ⊢
    omega
  · exact nameEdit?_of_findKeyword hText hStart hFind

/-
  The literal of a candidate is part of its source, in one
  of the decorators.
-/
theorem exists_literal_inside
    {c : Component}
    {source : Source}
    {decorator : Text}
    {region : Span}
    (hPlaced : c.candidate.Placed source decorator region)
    (hLiteral :
      c.candidate.call.literal? = some c.literal) :
    source.Holds c.literal.span ∧
      ∃ d ∈ c.candidate.decl.decorators,
        c.literal.span.Inside
          { lo := region.lo, hi := d.hi } := by
  rcases exists_decorator hPlaced.call hLiteral with
    ⟨d, hMem, callee, e, hValue, hArgument, hSpan⟩
  have hDecorator := hPlaced.decl.decorators d hMem
  rcases hDecorator.arguments _ _ _ hValue e hArgument with
    ⟨hInside, hHolds⟩
  have hCall := hDecorator.value
  rw [hValue] at hCall
  rw [hSpan] at hInside hHolds
  exact ⟨hHolds, d, hMem, hInside.trans hCall⟩

/-
  A candidate with a literal stands inside of its region,
  which goes on after it.
-/
theorem exists_stands
    {c : Component}
    {f : File}
    {decorator : Text}
    {region : Span}
    (hPlaced :
      c.candidate.Placed f.source decorator region)
    (hLiteral :
      c.candidate.call.literal? = some c.literal) :
    (∃ before literal between after,
        c.Stands f before literal between after) ∧
      region.lo ≤ f.source.start + c.start f ∧
      f.source.start + c.stop f < region.hi := by
  rcases exists_literal_inside hPlaced hLiteral with
    ⟨⟨before, literal, rest, hText, hSome, hHolds⟩,
      d, hMem, hLower, hEnd⟩
  rcases exists_nameEdit? hPlaced.decl with
    ⟨start, found, after, hSplit, hStart, hUpper, hName⟩
  rw [hHolds] at hLower hEnd
  simp only [Source.spanOf] at hLower hEnd
  -- the literal ends before the keyword is looked for
  have hOrder :
      Text.size (before ++ literal) ≤ Text.size start := by
    have hAfter :=
      (keywordStart_spec c.candidate.decl).2.2 d hMem
    rw [Text.size_append]
    omega
  rw [List.append_assoc] at hSplit
  rcases Text.exists_append_of_size_le
      (hText.symm.trans hSplit) hOrder with
    ⟨between, hBetween, hRest⟩
  have hFound :
      before ++ literal ++ (between ++ found) =
        start ++ found := by
    rw [hBetween]
    simp only [List.append_assoc]
  have hStands :
      c.Stands f before literal (between ++ found)
        after := by
    refine ⟨?_, hHolds, hSome, ?_⟩
    · rw [hFound, hSplit, List.append_assoc]
    · rw [hFound]
      exact hName
  refine ⟨⟨_, _, _, _, hStands⟩, ?_, ?_⟩
  · rw [hStands.start_eq]
    exact hLower
  · rw [hStands.stop_eq, hFound]
    exact hUpper

/- A component whose text ends before that of another. -/
def Before
    (f : File)
    (a b : Component) : Prop :=
  a.stop f < b.start f

/- The components of a script stand apart. -/
theorem pairwise_ofCandidates_before
    {f : File}
    {m : Script.Module}
    (decorator : Text)
    (hPlaced : m.Placed f.source) :
    (∀ c ∈ ofCandidates (Candidate.ofModule decorator m),
        ∃ before literal between after,
          c.Stands f before literal between after) ∧
      (ofCandidates
          (Candidate.ofModule decorator m)).Pairwise
        fun a b => Before f a b ∨ Before f b a := by
  constructor
  · intro c hMem
    rcases mem_ofCandidates_iff.mp hMem with
      ⟨hCandidate, hLiteral⟩
    rcases Candidate.exists_placed hPlaced
      (List.mem_of_getElem? hCandidate) with
      ⟨region, hRegion⟩
    exact (exists_stands hRegion hLiteral).1
  · refine List.Pairwise.imp_of_mem ?_
      (pairwise_ofCandidates (Candidate.pairwise_apart hPlaced))
    intro a b hA hB hApart
    rcases hApart with ⟨r, s, hFirst, hSecond, hSides⟩
    have hLiteralA := (mem_ofCandidates_iff.mp hA).2
    have hLiteralB := (mem_ofCandidates_iff.mp hB).2
    rcases exists_stands hFirst hLiteralA with
      ⟨_, hLowA, hHighA⟩
    rcases exists_stands hSecond hLiteralB with
      ⟨_, hLowB, hHighB⟩
    unfold Before
    rcases hSides with hSide | hSide
    · unfold Span.Before at hSide
      exact Or.inl (by omega)
    · unfold Span.Before at hSide
      exact Or.inr (by omega)

end Component

end ComponentLoader
