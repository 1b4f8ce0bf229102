import Mathlib.Tactic
import ComponentLoader.Component.Candidate
import ComponentLoader.Proofs.Source
import ComponentLoader.Proofs.Text.Keyword

/-
  Where the parts of a parsed script stand in its source.

  `Module.Placed` is what a parser owes: positions fall
  between characters, parts of a part stand inside of it,
  and two parts of one part stand apart.  Items stand in
  order; of the namespaces inside an item only that they
  are apart is asked, since they are listed as they were
  met.

  Main declarations:
    * `Span.Inside`
    * `Span.Apart`
    * `Source.Holds`
    * `Script.Class.Placed`
    * `Script.Item.Placed`
    * `Script.Module.Placed`
-/

------------------------------------------------------------
-- Spans
------------------------------------------------------------

namespace ComponentLoader

namespace Span

/- Whether a span is part of another. -/
def Inside
    (inner outer : Span) : Prop :=
  outer.lo ≤ inner.lo ∧ inner.hi ≤ outer.hi

/- Whether a span ends where another starts, or before. -/
def Before
    (first second : Span) : Prop :=
  first.hi ≤ second.lo

/- Whether two spans have nothing in common. -/
def Apart
    (a b : Span) : Prop :=
  a.Before b ∨ b.Before a

theorem Inside.refl
    (a : Span) :
    a.Inside a :=
  ⟨Nat.le_refl _, Nat.le_refl _⟩

theorem Inside.trans
    {a b c : Span}
    (hFirst : a.Inside b)
    (hSecond : b.Inside c) :
    a.Inside c :=
  ⟨Nat.le_trans hSecond.1 hFirst.1,
    Nat.le_trans hFirst.2 hSecond.2⟩

theorem Before.mono
    {a b c d : Span}
    (hBefore : c.Before d)
    (hFirst : a.Inside c)
    (hSecond : b.Inside d) :
    a.Before b :=
  Nat.le_trans hFirst.2
    (Nat.le_trans hBefore hSecond.1)

/- Parts of what is apart are apart. -/
theorem Apart.mono
    {a b c d : Span}
    (hApart : c.Apart d)
    (hFirst : a.Inside c)
    (hSecond : b.Inside d) :
    a.Apart b := by
  rcases hApart with hBefore | hBefore
  · exact Or.inl (hBefore.mono hFirst hSecond)
  · exact Or.inr (hBefore.mono hSecond hFirst)

end Span

namespace Source

/- Whether a position falls between two characters. -/
def HasPosition
    (s : Source)
    (position : Nat) : Prop :=
  ∃ before after,
    s.text = before ++ after ∧
      position = s.start + Text.size before

/- Whether a span is that of a part of the source. -/
def Holds
    (s : Source)
    (span : Span) : Prop :=
  ∃ before part after,
    s.text = before ++ part ++ after ∧
      part ≠ [] ∧ span = s.spanOf before part

end Source

namespace Script

------------------------------------------------------------
-- Classes
------------------------------------------------------------

/-
  A decorator in a region: its expression stands before
  its end, and the arguments stand inside of the call that
  the expression is.
-/
structure Decorator.Placed
    (d : Decorator)
    (source : Source)
    (region : Span) : Prop where
  position : source.HasPosition d.hi
  value : d.value.span.Inside { lo := region.lo, hi := d.hi }
  arguments :
    ∀ span callee arguments, d.value = .call span callee arguments →
      ∀ e, .item e ∈ arguments →
        e.span.Inside span ∧ source.Holds e.span

/-
  A class in a region: it starts there, its decorators are
  there, and after these the keyword stands alone, with
  the body of the class after it.
-/
structure Class.Placed
    (c : Class)
    (source : Source)
    (region : Span) : Prop where
  start : source.HasPosition c.lo
  inside : region.lo ≤ c.lo
  decorators :
    ∀ d ∈ c.decorators, d.Placed source region
  keyword :
    ∃ before after,
      source.text = before ++ Text.classKeyword ++ after ∧
        Text.StandsAlone before after ∧
        c.lo ≤ source.start + Text.size before ∧
        (∀ d ∈ c.decorators,
          d.hi ≤ source.start + Text.size before) ∧
        source.start +
            Text.size (before ++ Text.classKeyword) <
          region.hi

/- A call of one argument is placed as this argument is. -/
theorem Decorator.placed_call
    {source : Source}
    {region span : Span}
    {callee e : Expr}
    {hi : Nat}
    (hPosition : source.HasPosition hi)
    (hInside : span.Inside { lo := region.lo, hi := hi })
    (hItem : e.span.Inside span)
    (hHolds : source.Holds e.span) :
    Decorator.Placed
      { value := .call span callee [.item e], hi := hi }
      source region := by
  refine ⟨hPosition, hInside, ?_⟩
  intro span' callee' arguments hCall e' hMem
  simp only [Expr.call.injEq] at hCall
  rcases hCall with ⟨rfl, _, rfl⟩
  simp only [List.mem_singleton, Argument.item.injEq] at hMem
  subst hMem
  exact ⟨hItem, hHolds⟩

/- The class of an item in a region, if it is one. -/
def Shape.Placed
    (source : Source)
    (region : Span) : Shape → Prop
  | .classDecl _ decl => decl.Placed source region
  | .exportClass _ decl => decl.Placed source region
  | .exportDefault _ decl => decl.Placed source region
  | .expression _ => True
  | .other => True

------------------------------------------------------------
-- Modules
------------------------------------------------------------

mutual

/- An item in a region, with what is inside of it. -/
def Item.Placed
    (source : Source)
    (region : Span) : Item → Prop
  | .mk shape inner =>
      shape.Placed source region ∧
        ∃ regions : List Span,
          (∀ r ∈ regions, r.Inside region) ∧
            regions.Pairwise Span.Apart ∧
            Namespace.AllPlaced source regions inner
termination_by structural item => item

/- Items, each in a region. -/
def Item.AllPlaced
    (source : Source) :
    List Span → List Item → Prop
  | [], [] => True
  | region :: regions, item :: items =>
      Item.Placed source region item ∧
        Item.AllPlaced source regions items
  | [], _ :: _ => False
  | _ :: _, [] => False
termination_by structural _ items => items

/- A namespace in a region, with its items in order. -/
def Namespace.Placed
    (source : Source)
    (region : Span) : Namespace → Prop
  | .mk _ items =>
      ∃ regions : List Span,
        (∀ r ∈ regions, r.Inside region) ∧
          regions.Pairwise Span.Before ∧
          Item.AllPlaced source regions items
termination_by structural ns => ns

/- Namespaces, each in a region. -/
def Namespace.AllPlaced
    (source : Source) :
    List Span → List Namespace → Prop
  | [], [] => True
  | region :: regions, ns :: nss =>
      Namespace.Placed source region ns ∧
        Namespace.AllPlaced source regions nss
  | [], _ :: _ => False
  | _ :: _, [] => False
termination_by structural _ nss => nss

end

/- An item with nothing inside of it. -/
theorem Item.placed_of_shape
    {source : Source}
    {region : Span}
    {shape : Shape}
    (hShape : shape.Placed source region) :
    Item.Placed source region (.mk shape []) :=
  ⟨hShape, [], by simp, List.Pairwise.nil, trivial⟩

/- A namespace of one item. -/
theorem Namespace.placed_singleton
    {source : Source}
    {region inner : Span}
    {name : Option Text}
    {item : Item}
    (hInside : inner.Inside region)
    (hItem : Item.Placed source inner item) :
    Namespace.Placed source region (.mk name [item]) :=
  ⟨[inner], by simp [hInside], List.pairwise_singleton _ _,
    hItem, trivial⟩

/- Each of many things is in its region. -/
theorem exists_region
    {α : Type}
    {Placed : Span → α → Prop}
    {AllPlaced : List Span → List α → Prop}
    (hNil : ∀ x xs, ¬ AllPlaced [] (x :: xs))
    (hCons :
      ∀ r rs x xs, AllPlaced (r :: rs) (x :: xs) →
        Placed r x ∧ AllPlaced rs xs)
    {regions : List Span}
    {xs : List α}
    {k : Nat}
    {x : α}
    (hPlaced : AllPlaced regions xs)
    (hGet : xs[k]? = some x) :
    ∃ region, regions[k]? = some region ∧
      Placed region x := by
  induction xs generalizing regions k with
  | nil => exact absurd hGet (by simp)
  | cons first xs ih =>
      cases regions with
      | nil => exact absurd hPlaced (hNil first xs)
      | cons region regions =>
          rcases hCons _ _ _ _ hPlaced with ⟨hFirst, hRest⟩
          cases k with
          | zero =>
              simp only [List.getElem?_cons_zero,
                Option.some.injEq] at hGet
              exact ⟨region, rfl, hGet ▸ hFirst⟩
          | succ k =>
              rw [List.getElem?_cons_succ] at hGet ⊢
              exact ih hRest hGet

theorem Item.AllPlaced.get
    {source : Source}
    {regions : List Span}
    {items : List Item}
    {k : Nat}
    {item : Item}
    (hPlaced : Item.AllPlaced source regions items)
    (hItem : items[k]? = some item) :
    ∃ region, regions[k]? = some region ∧
      item.Placed source region :=
  exists_region (fun _ _ hNone => hNone)
    (fun _ _ _ _ hBoth => hBoth) hPlaced hItem

theorem Namespace.AllPlaced.get
    {source : Source}
    {regions : List Span}
    {nss : List Namespace}
    {k : Nat}
    {ns : Namespace}
    (hPlaced : Namespace.AllPlaced source regions nss)
    (hNamespace : nss[k]? = some ns) :
    ∃ region, regions[k]? = some region ∧
      ns.Placed source region :=
  exists_region (fun _ _ hNone => hNone)
    (fun _ _ _ _ hBoth => hBoth) hPlaced hNamespace

/- A module with its items in order. -/
def Module.Placed
    (m : Module)
    (source : Source) : Prop :=
  ∃ regions : List Span,
    regions.Pairwise Span.Before ∧
      Item.AllPlaced source regions m.items

/- A module of one item. -/
theorem Module.placed_singleton
    {source : Source}
    {item : Item}
    (region : Span)
    (hItem : Item.Placed source region item) :
    Module.Placed { items := [item] } source :=
  ⟨[region], List.pairwise_singleton _ _, hItem, trivial⟩

end Script

end ComponentLoader
