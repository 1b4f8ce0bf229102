import Mathlib.Tactic
import ComponentLoader.Component.Candidate

/-
  Which classes of a script are found, and in which order.

  A class is found at an address: the index of an item,
  that of a namespace inside the item, that of an item of
  the namespace, and so on.  What is inside of a class
  that was found has no address.  The search gives exactly
  the classes that have one, each once, in the order of
  their addresses.

  Main declarations:
    * `Candidate.FoundIn`
    * `Candidate.Found`
    * `Candidate.Enumerates`
    * `Candidate.enumerates_ofModule`
-/

------------------------------------------------------------
-- Addresses
------------------------------------------------------------

namespace ComponentLoader

namespace Candidate

/- The indices on the way to a class. -/
abbrev Address :=
  List Nat

/- Which class of an item may be a component. -/
abbrev Rule :=
  Script.Shape → Option (Option Text × Script.Class)

/-
  A class found in an item: the one that the item is, if
  it is decorated, or else one in a namespace inside the
  item.  The scope is made of the names on the way.
-/
inductive FoundIn
    (decorator : Text) :
    Rule → List Text → Script.Item → Address →
      Candidate → Prop where
  | own
      {rule : Rule}
      {scope : List Text}
      {shape : Script.Shape}
      {inner : List Script.Namespace}
      {name : Option Text}
      {decl : Script.Class}
      {call : Script.Call}
      (hRule : rule shape = some (name, decl))
      (hCall : decl.findCall? decorator = some call) :
      FoundIn decorator rule scope (.mk shape inner) []
        { scope := scope
          name := name
          decl := decl
          call := call }
  | inner
      {rule : Rule}
      {scope : List Text}
      {shape : Script.Shape}
      {inner : List Script.Namespace}
      {name : Option Text}
      {items : List Script.Item}
      {item : Script.Item}
      {i j : Nat}
      {address : Address}
      {c : Candidate}
      (hRule :
        ∀ name decl, rule shape = some (name, decl) →
          decl.findCall? decorator = none)
      (hNamespace : inner[i]? = some (.mk name items))
      (hItem : items[j]? = some item)
      (hFound :
        FoundIn decorator inNamespace
          (scope ++ name.toList) item address c) :
      FoundIn decorator rule scope (.mk shape inner)
        (i :: j :: address) c

/- A decorated class is not searched. -/
theorem not_findCall?_eq_none
    {decorator : Text}
    {rule : Rule}
    {shape : Script.Shape}
    {name : Option Text}
    {decl : Script.Class}
    {call : Script.Call}
    (hRule : rule shape = some (name, decl))
    (hCall : decl.findCall? decorator = some call) :
    ¬ ∀ name decl, rule shape = some (name, decl) →
      decl.findCall? decorator = none := by
  intro hNone
  have hAbsent := hNone name decl hRule
  rw [hCall] at hAbsent
  exact absurd hAbsent (by simp)

/- What is found in one of several things. -/
def Among
    {α : Type}
    (found : α → Address → Candidate → Prop)
    (xs : List α)
    (address : Address)
    (c : Candidate) : Prop :=
  ∃ k x rest,
    address = k :: rest ∧ xs[k]? = some x ∧ found x rest c

/- A class found in an item of a module. -/
def Found
    (decorator : Text)
    (m : Script.Module) : Address → Candidate → Prop :=
  Among (FoundIn decorator inModule []) m.items

/- A class found in an item of a namespace. -/
def FoundInNamespace
    (decorator : Text)
    (scope : List Text) :
    Script.Namespace → Address → Candidate → Prop
  | .mk name items =>
      Among
        (FoundIn decorator inNamespace
          (scope ++ name.toList))
        items

------------------------------------------------------------
-- Enumerations
------------------------------------------------------------

/-
  Classes that are just those found, each once, in the
  order of their addresses.
-/
def Enumerates
    (found : Address → Candidate → Prop)
    (cs : List Candidate) : Prop :=
  ∃ pairs : List (Address × Candidate),
    pairs.map Prod.snd = cs ∧
      (pairs.map Prod.fst).Pairwise (· < ·) ∧
      ∀ address c, (address, c) ∈ pairs ↔ found address c

/- Nothing is found in nothing. -/
theorem enumerates_nil
    {α : Type}
    (found : α → Address → Candidate → Prop) :
    Enumerates (Among found []) [] := by
  refine ⟨[], rfl, List.Pairwise.nil, ?_⟩
  intro address c
  simp [Among]

/- The address behind the first of several things. -/
def later : Address → Address
  | [] => []
  | k :: rest => (k + 1) :: rest

theorem among_cons_iff
    {α : Type}
    {found : α → Address → Candidate → Prop}
    {x : α}
    {xs : List α}
    {address : Address}
    {c : Candidate} :
    Among found (x :: xs) address c ↔
      (∃ rest, address = 0 :: rest ∧ found x rest c) ∨
        ∃ before, address = later before ∧
          Among found xs before c := by
  constructor
  · rintro ⟨k, y, rest, rfl, hGet, hFound⟩
    cases k with
    | zero =>
        simp only [List.getElem?_cons_zero,
          Option.some.injEq] at hGet
        subst hGet
        exact Or.inl ⟨rest, rfl, hFound⟩
    | succ k =>
        simp only [List.getElem?_cons_succ] at hGet
        exact Or.inr
          ⟨k :: rest, rfl, k, y, rest, rfl, hGet, hFound⟩
  · rintro (⟨rest, rfl, hFound⟩ |
      ⟨before, rfl, k, y, rest, rfl, hGet, hFound⟩)
    · exact ⟨0, x, rest, rfl, rfl, hFound⟩
    · exact ⟨k + 1, y, rest, rfl, by simpa using hGet,
        hFound⟩

/- Addresses in the first of several things come first. -/
theorem pairwise_later
    {firsts rests : List Address}
    (hFirsts : firsts.Pairwise (· < ·))
    (hRests : rests.Pairwise (· < ·))
    (hSome : ∀ address ∈ rests, address ≠ []) :
    (firsts.map (List.cons 0) ++
      rests.map later).Pairwise (· < ·) := by
  rw [List.pairwise_append, List.pairwise_map,
    List.pairwise_map]
  refine ⟨?_, ?_, ?_⟩
  · refine hFirsts.imp ?_
    intro a b hLt
    exact List.cons_lt_cons_iff.mpr (Or.inr ⟨rfl, hLt⟩)
  · refine List.Pairwise.imp_of_mem ?_ hRests
    intro a b hA hB hLt
    cases a with
    | nil => exact absurd rfl (hSome _ hA)
    | cons k as =>
        cases b with
        | nil => exact absurd rfl (hSome _ hB)
        | cons l bs =>
            refine List.cons_lt_cons_iff.mpr ?_
            rcases List.cons_lt_cons_iff.mp hLt with
              hHead | ⟨hHead, hTail⟩
            · exact Or.inl (Nat.succ_lt_succ hHead)
            · exact Or.inr ⟨congrArg Nat.succ hHead, hTail⟩
  · intro a hA b hB
    rcases List.mem_map.mp hA with ⟨rest, _, rfl⟩
    rcases List.mem_map.mp hB with ⟨address, hMem, rfl⟩
    cases address with
    | nil => exact absurd rfl (hSome _ hMem)
    | cons k bs =>
        exact List.cons_lt_cons_iff.mpr
          (Or.inl (Nat.succ_pos k))

/- What is found in the first, and then in the others. -/
theorem Enumerates.cons
    {α : Type}
    {found : α → Address → Candidate → Prop}
    {x : α}
    {xs : List α}
    {cs ds : List Candidate}
    (hFirst : Enumerates (found x) cs)
    (hRest : Enumerates (Among found xs) ds) :
    Enumerates (Among found (x :: xs)) (cs ++ ds) := by
  rcases hFirst with ⟨firsts, rfl, hFirsts, hFirstMem⟩
  rcases hRest with ⟨rests, rfl, hRests, hRestMem⟩
  refine ⟨
    firsts.map (fun p => (0 :: p.1, p.2)) ++
      rests.map (fun p => (later p.1, p.2)), ?_, ?_, ?_⟩
  · simp [Function.comp_def]
  · have hSome :
        ∀ address ∈ rests.map Prod.fst, address ≠ [] := by
      intro address hMem hNil
      rcases List.mem_map.mp hMem with ⟨⟨a, c⟩, hPair, rfl⟩
      rcases (hRestMem a c).mp hPair with
        ⟨k, y, rest, hCons, _⟩
      exact absurd (hCons.symm.trans hNil) (by simp)
    have hAll := pairwise_later hFirsts hRests hSome
    simpa [Function.comp_def] using hAll
  · intro address c
    rw [among_cons_iff, List.mem_append, List.mem_map,
      List.mem_map]
    constructor
    · rintro (⟨⟨a, d⟩, hMem, hEq⟩ | ⟨⟨a, d⟩, hMem, hEq⟩)
      · rw [Prod.mk.injEq] at hEq
        rcases hEq with ⟨rfl, rfl⟩
        exact Or.inl ⟨a, rfl, (hFirstMem a d).mp hMem⟩
      · rw [Prod.mk.injEq] at hEq
        rcases hEq with ⟨rfl, rfl⟩
        exact Or.inr ⟨a, rfl, (hRestMem a d).mp hMem⟩
    · rintro (⟨rest, rfl, hFound⟩ | ⟨a, rfl, hFound⟩)
      · exact Or.inl
          ⟨(rest, c), (hFirstMem rest c).mpr hFound, rfl⟩
      · exact Or.inr
          ⟨(a, c), (hRestMem a c).mpr hFound, rfl⟩

------------------------------------------------------------
-- The Search
------------------------------------------------------------

variable {decorator : Text}

/- A class that is found is a decorated one. -/
theorem eq_of_ofClass?
    {scope : List Text}
    {found : Option (Option Text × Script.Class)}
    {c : Candidate}
    (hClass : ofClass? decorator scope found = some c) :
    ∃ name decl call,
      found = some (name, decl) ∧
        decl.findCall? decorator = some call ∧
        c =
          { scope := scope
            name := name
            decl := decl
            call := call } := by
  match found with
  | none => exact absurd hClass (by simp [ofClass?])
  | some (name, decl) =>
      rw [ofClass?, Option.map_eq_some_iff] at hClass
      rcases hClass with ⟨call, hCall, rfl⟩
      exact ⟨name, decl, call, rfl, hCall, rfl⟩

theorem findCall?_of_ofClass?
    {scope : List Text}
    {found : Option (Option Text × Script.Class)}
    (hClass : ofClass? decorator scope found = none)
    (name : Option Text)
    (decl : Script.Class)
    (hFound : found = some (name, decl)) :
    decl.findCall? decorator = none := by
  subst hFound
  rw [ofClass?, Option.map_eq_none_iff] at hClass
  exact hClass

/- What is found in an item: itself, or what is inside. -/
theorem enumerates_item
    {rule : Rule}
    {scope : List Text}
    {shape : Script.Shape}
    {inner : List Script.Namespace}
    {cs : List Candidate}
    (hInner :
      Enumerates
        (Among (FoundInNamespace decorator scope) inner)
        cs) :
    Enumerates
      (FoundIn decorator rule scope (.mk shape inner))
      (match ofClass? decorator scope (rule shape) with
        | some c => [c]
        | none => cs) := by
  split
  · next c hClass =>
      rcases eq_of_ofClass? hClass with
        ⟨name, decl, call, hRule, hCall, rfl⟩
      refine ⟨[([], _)], rfl, List.pairwise_singleton _ _, ?_⟩
      intro address d
      rw [List.mem_singleton, Prod.mk.injEq]
      constructor
      · rintro ⟨rfl, rfl⟩
        exact .own hRule hCall
      · intro hFound
        cases hFound with
        | own hRule' hCall' =>
            rw [hRule, Option.some.injEq, Prod.mk.injEq]
              at hRule'
            rcases hRule' with ⟨rfl, rfl⟩
            rw [hCall, Option.some.injEq] at hCall'
            exact ⟨rfl, by rw [hCall']⟩
        | inner hNone _ _ _ =>
            exact absurd hNone
              (not_findCall?_eq_none hRule hCall)
  · next hClass =>
      have hNone := findCall?_of_ofClass? hClass
      rcases hInner with ⟨pairs, hPairs, hOrder, hMem⟩
      refine ⟨pairs, hPairs, hOrder, ?_⟩
      intro address c
      rw [hMem address c]
      constructor
      · rintro ⟨i, ⟨name, items⟩, _, rfl, hNamespace, j,
          item, rest, rfl, hItem, hFound⟩
        exact .inner hNone hNamespace hItem hFound
      · intro hFound
        cases hFound with
        | own hRule hCall =>
            exact absurd hNone
              (not_findCall?_eq_none hRule hCall)
        | inner _ hNamespace hItem hFound =>
            exact ⟨_, _, _, rfl, hNamespace, _, _, _, rfl,
              hItem, hFound⟩

mutual

/- The search of namespaces finds what is in them. -/
theorem enumerates_ofNamespaces :
    (nss : List Script.Namespace) →
    (scope : List Text) →
    Enumerates
      (Among (FoundInNamespace decorator scope) nss)
      (ofNamespaces decorator scope nss)
  | [], _ => by
      rw [ofNamespaces]
      exact enumerates_nil _
  | ns :: nss, scope => by
      rw [ofNamespaces]
      have hFirst := enumerates_ofNamespace ns scope
      have hRest := enumerates_ofNamespaces nss scope
      exact hFirst.cons hRest
termination_by structural nss => nss

theorem enumerates_ofNamespace :
    (ns : Script.Namespace) →
    (scope : List Text) →
    Enumerates (FoundInNamespace decorator scope ns)
      (ofNamespace decorator scope ns)
  | .mk (some name) items, scope => by
      rw [ofNamespace]
      exact enumerates_ofItems items (scope ++ [name])
  | .mk none items, scope => by
      rw [ofNamespace, FoundInNamespace, Option.toList_none,
        List.append_nil]
      exact enumerates_ofItems items scope
termination_by structural ns => ns

theorem enumerates_ofItems :
    (items : List Script.Item) →
    (scope : List Text) →
    Enumerates
      (Among (FoundIn decorator inNamespace scope) items)
      (ofItems decorator scope items)
  | [], _ => by
      rw [ofItems]
      exact enumerates_nil _
  | item :: items, scope => by
      rw [ofItems]
      have hFirst := enumerates_ofItem item scope
      have hRest := enumerates_ofItems items scope
      exact hFirst.cons hRest
termination_by structural items => items

theorem enumerates_ofItem :
    (item : Script.Item) →
    (scope : List Text) →
    Enumerates (FoundIn decorator inNamespace scope item)
      (ofItem decorator scope item)
  | .mk shape inner, scope => by
      rw [ofItem]
      have hInner := enumerates_ofNamespaces inner scope
      exact enumerates_item hInner
termination_by structural item => item

end

/- The search finds what is to be found, in order. -/
theorem enumerates_ofModule
    (m : Script.Module) :
    Enumerates (Found decorator m)
      (ofModule decorator m) := by
  rcases m with ⟨items⟩
  unfold Found ofModule
  induction items with
  | nil => exact enumerates_nil _
  | cons item items ih =>
      rcases item with ⟨shape, inner⟩
      rw [List.flatMap_cons]
      refine Enumerates.cons ?_ ih
      exact enumerates_item (enumerates_ofNamespaces inner [])

------------------------------------------------------------
-- Reading An Enumeration
------------------------------------------------------------

theorem Enumerates.mem_iff
    {found : Address → Candidate → Prop}
    {cs : List Candidate}
    (hEnumerates : Enumerates found cs)
    (c : Candidate) :
    c ∈ cs ↔ ∃ address, found address c := by
  rcases hEnumerates with ⟨pairs, rfl, _, hMem⟩
  constructor
  · intro hC
    rcases List.mem_map.mp hC with ⟨⟨a, d⟩, hPair, rfl⟩
    exact ⟨a, (hMem a d).mp hPair⟩
  · rintro ⟨a, hFound⟩
    exact List.mem_map.mpr ⟨(a, c), (hMem a c).mpr hFound, rfl⟩

/- What holds of classes one after another. -/
theorem Enumerates.pairwise_iff
    {found : Address → Candidate → Prop}
    {cs : List Candidate}
    {R : Candidate → Candidate → Prop}
    (hEnumerates : Enumerates found cs) :
    cs.Pairwise R ↔
      ∀ a b c d, a < b → found a c → found b d → R c d := by
  rcases hEnumerates with ⟨pairs, rfl, hOrder, hMem⟩
  rw [List.pairwise_map] at hOrder ⊢
  constructor
  · intro hPairs a b c d hLt hFirst hSecond
    have hA := (hMem a c).mpr hFirst
    have hB := (hMem b d).mpr hSecond
    -- The pairs are in order, so that the two stand there
    -- as their addresses say.
    have hBoth := hOrder.and hPairs
    have hAny :
        ∀ p ∈ pairs, ∀ q ∈ pairs, p.1 < q.1 → R p.2 q.2 := by
      refine List.Pairwise.forall_of_forall_of_flip ?_ ?_ ?_
      · intro p _ hSelf
        exact absurd hSelf (lt_irrefl p.1)
      · refine hBoth.imp ?_
        intro p q hPair _
        exact hPair.2
      · refine hBoth.imp ?_
        intro p q hPair hBack
        exact absurd hBack (lt_asymm hPair.1)
    exact hAny (a, c) hA (b, d) hB hLt
  · intro hAll
    refine List.Pairwise.imp_of_mem ?_ hOrder
    intro p q hP hQ hLt
    exact hAll p.1 q.1 p.2 q.2 hLt ((hMem _ _).mp hP)
      ((hMem _ _).mp hQ)

end Candidate

end ComponentLoader
