import Mathlib.Tactic
import ComponentLoader.Proofs.Query.Contents

/-
  The shape of what query strings are read as.

  What a query holds is described by where it stands: under
  a key, at a position of a list, or among the occurrences
  of a repeated key.  Every pair keeps the description, in
  whatever way it joins, extends or replaces what is there.

  Main declarations:
    * `Position`
    * `Value.Holds`
    * `Value.Within`
    * `Value.Single`
    * `Shaped`
    * `Image.at_of_holds`
    * `Image.at_of_within`
    * `shaped_parse`
-/

------------------------------------------------------------
-- Parts Of A Value
------------------------------------------------------------

namespace ComponentLoader

namespace Query

/- Where a value stands in the one that holds it. -/
inductive Position where
  /- Under a key of a map, or of a query. -/
  | key (name : Text)
  /- In a list. -/
  | item (i : Nat)
  /- Among the values of a repeated key. -/
  | occurrence (i : Nat)

namespace Value

/- What a value holds, and where. -/
inductive Holds : Value → Position → Value → Prop where
  | entry
      {entries : Dict Value}
      {key : Text}
      {v : Value}
      (hEntry : (key, v) ∈ entries) :
      Holds (.map entries) (.key key) v
  | item
      {items : List Value}
      {i : Nat}
      {v : Value}
      (hItem : items[i]? = some v) :
      Holds (.list items) (.item i) v
  | occurrence
      {items : List Value}
      {i : Nat}
      {v : Value}
      (hItem : items[i]? = some v) :
      Holds (.repeated items) (.occurrence i) v

/- What a value holds at any depth, and where. -/
inductive Within
    (outer : Value) : Position → Value → Prop where
  | part
      {p : Position}
      {v : Value}
      (hPart : outer.Holds p v) :
      Within outer p v
  | deeper
      {p q : Position}
      {v w : Value}
      (hWithin : Within outer p v)
      (hPart : v.Holds q w) :
      Within outer q w

/-
  Whether there is one part at every level, down to a flag
  or a text.
-/
inductive Single : Value → Prop where
  | leaf
      {v : Value}
      (hLeaf : v.isLeaf = true) :
      Single v
  | list
      {v : Value}
      (hItem : Single v) :
      Single (.list [v])
  | map
      {v : Value}
      (key : Text)
      (hItem : Single v) :
      Single (.map [(key, v)])

end Value

/- What a query holds at any depth, and where. -/
def Within
    (q : Query)
    (p : Position)
    (v : Value) : Prop :=
  (Value.map q.params).Within p v

/-
  The shape of a query that was read.  Every map has a
  first key, which addresses no position of a list; later
  keys may, but only where the map is an item of a list.
-/
structure Shaped
    (q : Query) : Prop where
  distinct : (Dict.keys q.params).Nodup
  nonempty : ∀ key ∈ Dict.keys q.params, key ≠ []
  /- A key with a bracket that is no root of segments. -/
  whole : ∀ key v, (key, v) ∈ q.params →
    Key.split key = { root := key, segments := [] } →
    '[' ∈ key →
      v.isLeaf = true ∨
        ∃ items, v = .repeated items ∧
          ∀ item ∈ items, item.isLeaf = true
  list : ∀ p items, q.Within p (.list items) → items ≠ []
  /- A list in a list. -/
  nested : ∀ i items, q.Within (.item i) (.list items) →
    ∃ v, items = [v] ∧ v.Single
  repeated : ∀ p items, q.Within p (.repeated items) →
    2 ≤ items.length ∧ ∃ key, p = .key key
  occurrence : ∀ i v, q.Within (.occurrence i) v →
    v.isLeaf = true ∨ i = 0 ∧ ∃ entries, v = .map entries
  map : ∀ p entries, q.Within p (.map entries) →
    (Dict.keys entries).Nodup ∧
      (∀ key ∈ Dict.keys entries, ']' ∉ key) ∧
      (∃ first, (Dict.keys entries).head? = some first ∧
        Key.isIndex first = false) ∧
      ((∃ key ∈ Dict.keys entries,
          Key.isIndex key = true) → ∃ i, p = .item i)

------------------------------------------------------------
-- Parts Of What Can Be Read
------------------------------------------------------------

namespace Image

/- What can stand at a position. -/
def At : Position → Value → Prop
  | .key _, v => Slot v
  | .item i, v => Item i v
  | .occurrence i, v =>
      v.isLeaf = true ∨
        i = 0 ∧ ∃ entries, v = .map entries ∧ Slot v

/- A single leaf may stand under a key. -/
theorem slot_of_chain
    {v : Value}
    (hChain : Chain v) :
    Slot v := by
  rcases hChain with ⟨segments, leaf, hLeaf, hSegments, rfl⟩
  exact slot_nest hSegments hLeaf

theorem single_of_chain
    {v : Value}
    (hChain : Chain v) :
    v.Single := by
  rcases hChain with ⟨segments, leaf, hLeaf, -, rfl⟩
  induction segments with
  | nil => exact .leaf hLeaf
  | cons segment rest ih =>
      rw [nest]
      split
      · exact .list ih
      · exact .map segment ih

section Parts

variable {p : Position}

/- A list has the items of one under a key. -/
theorem items_of_at
    {items : List Value}
    (hAt : At p (.list items)) :
    items ≠ [] ∧ Items 0 items := by
  have hSlot : Slot (.list items) := by
    cases p with
    | key name => exact hAt
    | item i =>
        simp only [At, Item] at hAt
        exact slot_of_chain hAt
    | occurrence i => simp [At, Value.isLeaf] at hAt
  simpa only [Slot] using hSlot

/-
  A map has the entries of one under a key, but its keys
  are free if it is an item.
-/
theorem entries_of_at
    {entries : Dict Value}
    (hAt : At p (.map entries)) :
    Entries entries ∧
      (MapKeys false (Dict.keys entries) ∨
        MapKeys true (Dict.keys entries) ∧
          ∃ i, p = .item i) := by
  cases p with
  | key name =>
      simp only [At, Slot] at hAt
      exact ⟨hAt.2, Or.inl hAt.1⟩
  | item i =>
      simp only [At, Item] at hAt
      rcases hAt with hChain | ⟨-, hKeys, hEntries⟩
      · have hSlot := slot_of_chain hChain
        simp only [Slot] at hSlot
        exact ⟨hSlot.2, Or.inl hSlot.1⟩
      · exact ⟨hEntries, Or.inr ⟨hKeys, i, rfl⟩⟩
  | occurrence i =>
      rcases hAt with hLeaf | ⟨-, -, -, hSlot⟩
      · simp [Value.isLeaf] at hLeaf
      · simp only [Slot] at hSlot
        exact ⟨hSlot.2, Or.inl hSlot.1⟩

/- A repeated key is one, and no item of anything. -/
theorem occurrences_of_at
    {items : List Value}
    (hAt : At p (.repeated items)) :
    Occurrences items ∧ ∃ key, p = .key key := by
  cases p with
  | key name =>
      simp only [At, Slot] at hAt
      exact ⟨hAt, name, rfl⟩
  | item i => simp [At, Item] at hAt
  | occurrence i => simp [At, Value.isLeaf] at hAt

/- Only the first occurrence can be a map. -/
theorem at_occurrence
    {items : List Value}
    (hItems : Occurrences items)
    {i : Nat}
    {v : Value}
    (hGet : items[i]? = some v) :
    At (.occurrence i) v := by
  cases items with
  | nil => simp [Occurrences] at hItems
  | cons first rest =>
      simp only [Occurrences] at hItems
      rcases hItems with ⟨hFirst, -, hRest⟩
      cases i with
      | succ i =>
          exact Or.inl (hRest v
            (List.mem_of_getElem? (by simpa using hGet)))
      | zero =>
          have hEq : first = v := by simpa using hGet
          subst hEq
          cases first with
          | flag => exact Or.inl rfl
          | text t => exact Or.inl rfl
          | list items => simp [Occurrence] at hFirst
          | repeated items => simp [Occurrence] at hFirst
          | map entries =>
              refine Or.inr ⟨rfl, entries, rfl, ?_⟩
              simpa only [Occurrence, Slot] using hFirst

/- What a value that can be read holds can stand there. -/
theorem at_of_holds
    {q : Position}
    {v w : Value}
    (hAt : At p v)
    (hHolds : v.Holds q w) :
    At q w := by
  cases hHolds with
  | entry hEntry =>
      have hEntries := (entries_of_at hAt).1
      rw [entries_iff] at hEntries
      exact hEntries _ hEntry
  | @item items i _ hItem =>
      have hThere :=
        item_of_getElem? (items_of_at hAt).2 hItem
      rwa [Nat.zero_add] at hThere
  | occurrence hItem =>
      exact at_occurrence (occurrences_of_at hAt).1 hItem

end Parts

/- So can everything that is held at any depth. -/
theorem at_of_within
    {q : Query}
    (hParams : Params q.params)
    {p : Position}
    {v : Value}
    (hWithin : q.Within p v) :
    At p v := by
  induction hWithin with
  | part hPart =>
      cases hPart with
      | entry hEntry => exact (hParams.roots _ hEntry).slot
  | deeper hWithin hPart ih => exact at_of_holds ih hPart

------------------------------------------------------------
-- The Shape Of A Query
------------------------------------------------------------

/- A repeated key has at least two values. -/
theorem length_of_occurrences
    {items : List Value}
    (hItems : Occurrences items) :
    2 ≤ items.length := by
  cases items with
  | nil => simp [Occurrences] at hItems
  | cons first rest =>
      simp only [Occurrences] at hItems
      have hRest := List.length_pos_of_ne_nil hItems.2.1
      rw [List.length_cons]
      omega

theorem isLeaf_of_bare
    {v : Value}
    (hBare : Bare v) :
    v.isLeaf = true ∨
      ∃ items, v = .repeated items ∧
        ∀ item ∈ items, item.isLeaf = true := by
  cases v with
  | flag => exact Or.inl rfl
  | text t => exact Or.inl rfl
  | repeated items => exact Or.inr ⟨items, rfl, hBare⟩
  | list items => exact absurd hBare (by simp [Bare])
  | map entries => exact absurd hBare (by simp [Bare])

/- All that can be read has the shape. -/
theorem shaped_of_params
    {q : Query}
    (hParams : Params q.params) :
    q.Shaped where
  distinct := hParams.distinct
  nonempty := by
    intro key hKey
    rcases List.mem_map.mp hKey with ⟨entry, hEntry, rfl⟩
    exact (hParams.roots entry hEntry).nonempty
  whole := by
    intro key v hEntry _ hOpen
    exact isLeaf_of_bare
      ((hParams.roots (key, v) hEntry).bare hOpen)
  list := by
    intro p items hWithin
    exact (items_of_at (at_of_within hParams hWithin)).1
  nested := by
    intro i items hWithin
    have hItem := at_of_within hParams hWithin
    simp only [At, Item] at hItem
    cases single_of_chain hItem with
    | leaf hLeaf => simp [Value.isLeaf] at hLeaf
    | list hSingle => exact ⟨_, rfl, hSingle⟩
  repeated := by
    intro p items hWithin
    have hAt :=
      occurrences_of_at (at_of_within hParams hWithin)
    exact ⟨length_of_occurrences hAt.1, hAt.2⟩
  occurrence := by
    intro i v hWithin
    rcases at_of_within hParams hWithin with
      hLeaf | ⟨hFirst, entries, hMap, -⟩
    · exact Or.inl hLeaf
    · exact Or.inr ⟨hFirst, entries, hMap⟩
  map := by
    intro p entries hWithin
    rcases (entries_of_at
        (at_of_within hParams hWithin)).2 with
      hKeys | ⟨hKeys, hItem⟩
    · refine ⟨hKeys.distinct, hKeys.closed, hKeys.first, ?_⟩
      rintro ⟨key, hMem, hIndex⟩
      rw [hKeys.plain rfl key hMem] at hIndex
      cases hIndex
    · exact ⟨hKeys.distinct, hKeys.closed, hKeys.first,
        fun _ => hItem⟩

end Image

------------------------------------------------------------
-- Query Strings
------------------------------------------------------------

/- A query has no more leaves than its string has pairs. -/
theorem card_contents_le
    (input : Text) :
    (parse input).contents.card ≤ (pairs input).length := by
  have hRead : ∀ pair ∈ pairs input,
      pair.value.isLeaf = true := by
    intro pair hMem
    rcases List.mem_filterMap.mp hMem with ⟨piece, -, hPair⟩
    exact (Image.leaf_of_ofText? hPair).2
  have hFold :
      (parse input).contents + lost [] (pairs input) =
        ↑((pairs input).map Pair.value) := by
    simpa [allContents, contents, parse] using
      contents_foldl hRead []
  have hCard := congrArg Multiset.card hFold
  rw [Multiset.card_add, Multiset.coe_card,
    List.length_map] at hCard
  omega

/-
  Every query string is read as a query of this shape, with
  at most one leaf for every pair between two ampersands,
  whatever positions the pairs address.
-/
theorem shaped_parse
    (input : Text) :
    (parse input).Shaped ∧
      (parse input).contents.card ≤ (pairs input).length ∧
      (pairs input).length ≤
        (Text.splitAll '&' input).length :=
  ⟨Image.shaped_of_params (Image.params_parse input),
    card_contents_le input, List.length_filterMap_le _ _⟩

/-
  The later key of a map in a list may be a number, and a
  map may come before the other values of a repeated key.
-/
example :
    (parse "a[0][x]=1&a[0][5]=2&b[c]&b".toList).params =
      [("a".toList,
          .list
            [.map
              [("x".toList, .text "1".toList),
                ("5".toList, .text "2".toList)]]),
        ("b".toList,
          .repeated [.map [("c".toList, .flag)], .flag])] := by
  rfl

end Query

end ComponentLoader
