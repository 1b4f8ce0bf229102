import Mathlib.Tactic
import ComponentLoader.Proofs.Query.RoundTrip

/-
  Pairs of a query string that have different roots do not
  concern each other.

  A pair writes into the slot of its root alone.  So the
  value of a root is made of the pairs with this root, in
  their order, and the roots stand where each comes first,
  however the pairs of several roots are mixed.

  Main declarations:
    * `Pair.root`
    * `pairsOf`
    * `slotAfter`
    * `get?_insertPair`
    * `get?_parse`
    * `keys_parse`
    * `Rearranged`
    * `parse_by_roots`
-/

------------------------------------------------------------
-- Pairs Of A Root
------------------------------------------------------------

namespace ComponentLoader

namespace Query

/- The key of the parameter that a pair is written into. -/
def Pair.root
    (p : Pair) : Text :=
  (Key.split p.key).root

/- What a pair writes there. -/
def Pair.leaf
    (p : Pair) : Leaf :=
  { segments := (Key.split p.key).segments
    value := p.value }

/- The pairs that are written into one parameter. -/
def pairsOf
    (root : Text)
    (read : List Pair) : List Pair :=
  read.filter fun p => p.root = root

/- What pairs with one root make of its slot. -/
def slotAfter
    (read : List Pair)
    (slot : Option Value) : Option Value :=
  writeAll (read.map Pair.leaf) slot

/- One pair writes into the slot of its own root alone. -/
theorem get?_insertPair
    (params : Dict Value)
    (p : Pair)
    (root : Text) :
    Dict.get? (insertPair params p) root =
      if p.root = root then
        some (p.leaf.write (Dict.get? params root))
      else
        Dict.get? params root := by
  have hInsert :
      insertPair params p =
        Dict.alter p.root p.leaf.write params := rfl
  rw [hInsert]
  split
  · next hRoot =>
      subst hRoot
      exact Dict.get?_alter_self _ _ _
  · next hRoot =>
      exact Dict.get?_alter_other _ _ _ _ (Ne.symm hRoot)

/- After several pairs it holds what those of it wrote. -/
theorem get?_foldl_insertPair
    (read : List Pair)
    (params : Dict Value)
    (root : Text) :
    Dict.get? (read.foldl insertPair params) root =
      slotAfter (pairsOf root read)
        (Dict.get? params root) := by
  induction read generalizing params with
  | nil => rfl
  | cons p rest ih =>
      rw [List.foldl_cons, ih, get?_insertPair]
      by_cases hRoot : p.root = root
      · rw [if_pos hRoot, pairsOf, pairsOf,
          List.filter_cons_of_pos (by simpa)]
        rfl
      · rw [if_neg hRoot, pairsOf, pairsOf,
          List.filter_cons_of_neg (by simpa)]

/- The value of a root is what its own pairs make. -/
theorem get?_parse
    (input root : Text) :
    (parse input).get? root =
      slotAfter (pairsOf root (pairs input)) none :=
  get?_foldl_insertPair (pairs input) [] root

/- Roots stand in the order in which they come first. -/
theorem keys_parse
    (input : Text) :
    Dict.keys (parse input).params =
      ((pairs input).map Pair.root).eraseDups := by
  have hKeys :
      Dict.keys (parse input).params =
        Dict.keys [] ++
          (((pairs input).map Pair.root).filter
            (· ∉ Dict.keys ([] : Dict Value))).eraseDups :=
    Dict.keys_foldl_alter Pair.root
      (fun p => p.leaf.write) (pairs input) []
  rw [hKeys]
  simp [Dict.keys]

------------------------------------------------------------
-- Rearranged Pairs
------------------------------------------------------------

/-
  Whether pairs are rearranged in such a way that those of
  one root keep their order.
-/
structure Rearranged
    (read other : List Pair) : Prop where
  perm : read.Perm other
  order : ∀ root, pairsOf root read = pairsOf root other

/- Two pairs may change places unless their roots agree. -/
theorem Rearranged.swap
    {p q : Pair}
    (hRoots : p.root ≠ q.root)
    (rest : List Pair) :
    Rearranged (p :: q :: rest) (q :: p :: rest) where
  perm := List.Perm.swap q p rest
  order := by
    intro root
    by_cases hRoot : p.root = root
    · have hOther : q.root ≠ root := by
        rintro rfl
        exact hRoots hRoot
      simp [pairsOf, hRoot, hOther]
    · simp [pairsOf, List.filter_cons, hRoot]

theorem Rearranged.cons
    {read other : List Pair}
    (hRearranged : Rearranged read other)
    (p : Pair) :
    Rearranged (p :: read) (p :: other) where
  perm := hRearranged.perm.cons p
  order := by
    intro root
    have hOrder := hRearranged.order root
    unfold pairsOf at hOrder ⊢
    rw [List.filter_cons, List.filter_cons, hOrder]

theorem Rearranged.trans
    {read middle other : List Pair}
    (hFirst : Rearranged read middle)
    (hSecond : Rearranged middle other) :
    Rearranged read other where
  perm := hFirst.perm.trans hSecond.perm
  order := fun root =>
    (hFirst.order root).trans (hSecond.order root)

------------------------------------------------------------
-- Queries Of Rearranged Pairs
------------------------------------------------------------

/-
  Whether two queries have the same keys, in an order of
  their own, with the very same values.
-/
structure SameValues
    (q other : Query) : Prop where
  keys : (Dict.keys q.params).Perm (Dict.keys other.params)
  values : ∀ key, q.get? key = other.get? key

/- The order of roots does not matter to their values. -/
theorem Rearranged.sameValues
    {first second : Text}
    (hRearranged : Rearranged (pairs first) (pairs second)) :
    SameValues (parse first) (parse second) where
  keys := by
    have hFirst := (Image.params_parse first).distinct
    have hSecond := (Image.params_parse second).distinct
    rw [List.perm_ext_iff_of_nodup hFirst hSecond]
    intro root
    rw [keys_parse, keys_parse, List.mem_eraseDups,
      List.mem_eraseDups]
    exact (hRearranged.perm.map Pair.root).mem_iff
  values := by
    intro root
    rw [get?_parse, get?_parse, hRearranged.order root]

/-
  Roots do not interfere.  The value of each is what its
  own pairs make in their order, whatever stands between
  them, and the roots stand where each comes first.
-/
theorem parse_by_roots :
    (∀ input root,
      (parse input).get? root =
        slotAfter (pairsOf root (pairs input)) none) ∧
    (∀ input,
      Dict.keys (parse input).params =
        ((pairs input).map Pair.root).eraseDups) ∧
    (∀ first second root,
      pairsOf root (pairs first) =
          pairsOf root (pairs second) →
        (parse first).get? root =
          (parse second).get? root) ∧
    ∀ first second,
      Rearranged (pairs first) (pairs second) →
        SameValues (parse first) (parse second) := by
  refine ⟨get?_parse, keys_parse, ?_, ?_⟩
  · intro first second root hPairs
    rw [get?_parse, get?_parse, hPairs]
  · intro first second hRearranged
    exact hRearranged.sameValues

/- Pairs of three roots. -/
def Sample.woven : Text :=
  "a[b]=1&c=2&a=3&d&c[]=4".toList

/- The same, some moved past those of other roots. -/
def Sample.moved : Text :=
  "c=2&a[b]=1&a=3&c[]=4&d".toList

theorem Sample.woven_moved :
    Rearranged (pairs Sample.woven) (pairs Sample.moved) := by
  let ab : Pair := ⟨"a[b]".toList, .text "1".toList⟩
  let c : Pair := ⟨"c".toList, .text "2".toList⟩
  let a : Pair := ⟨"a".toList, .text "3".toList⟩
  let d : Pair := ⟨"d".toList, .flag⟩
  let c' : Pair := ⟨"c[]".toList, .text "4".toList⟩
  have hWoven : pairs Sample.woven = [ab, c, a, d, c'] := rfl
  have hMoved :
      pairs Sample.moved = [c, ab, a, c', d] := rfl
  have hFirst :
      Rearranged [ab, c, a, d, c'] [c, ab, a, d, c'] :=
    Rearranged.swap (by decide) [a, d, c']
  have hLast :
      Rearranged [c, ab, a, d, c'] [c, ab, a, c', d] :=
    (((Rearranged.swap (by decide) []).cons a).cons ab).cons c
  rw [hWoven, hMoved]
  exact hFirst.trans hLast

theorem parse_by_roots_sample :
    Rearranged (pairs Sample.woven) (pairs Sample.moved) ∧
      SameValues (parse Sample.woven) (parse Sample.moved) ∧
      Sample.woven ≠ Sample.moved :=
  ⟨Sample.woven_moved,
    parse_by_roots.2.2.2 _ _ Sample.woven_moved,
    by decide⟩

end Query

end ComponentLoader
