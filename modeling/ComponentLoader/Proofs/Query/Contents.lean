import Mathlib.Tactic
import ComponentLoader.Proofs.Query.RoundTrip

/-
  What reading a query string keeps of its pairs.

  The flags and texts of a query, and those that were given
  up for others, are the values of the pairs, each of them
  once.  A pair gives up what it finds in the way: a key
  that holds something else than the list or the map it is
  written into, or an item of a list in the place of a map.

  Main declarations:
    * `Value.contents`
    * `displaced`
    * `contents_place`
    * `Suits`
    * `displaced_eq_zero_iff`
    * `contents_parse`
-/

------------------------------------------------------------
-- Contents
------------------------------------------------------------

namespace ComponentLoader

namespace Query

namespace Value

/- The flags and texts in a value, as often as they occur. -/
def contents
    (v : Value) : Multiset Value :=
  ↑(v.leaves.map Leaf.value)

theorem contents_of_isLeaf
    {v : Value}
    (hLeaf : v.isLeaf = true) :
    v.contents = {v} := by
  rw [contents, leaves_of_isLeaf hLeaf]
  rfl

/- A segment before leaves does not change their values. -/
theorem map_value_under
    (segment : Text)
    (leaves : List Leaf) :
    (leaves.map (Leaf.under segment)).map Leaf.value =
      leaves.map Leaf.value := by
  rw [List.map_map]
  rfl

/- The contents of items, however they are written. -/
theorem contents_plainLeaves
    (items : List Value) :
    (↑((plainLeaves items).map Leaf.value) :
        Multiset Value) =
      (items.map contents).sum := by
  induction items with
  | nil => rfl
  | cons item rest ih =>
      rw [plainLeaves, List.map_append, ← Multiset.coe_add,
        ih, List.map_cons, List.sum_cons, contents]

theorem contents_indexedLeaves
    (i : Nat)
    (items : List Value) :
    (↑((indexedLeaves i items).map Leaf.value) :
        Multiset Value) =
      (items.map contents).sum := by
  induction items generalizing i with
  | nil => rfl
  | cons item rest ih =>
      rw [indexedLeaves, List.map_append, map_value_under,
        ← Multiset.coe_add, ih, List.map_cons,
        List.sum_cons, contents]

@[simp] theorem contents_list
    (items : List Value) :
    (list items).contents = (items.map contents).sum := by
  rw [contents, leaves]
  split
  · exact contents_indexedLeaves 0 items
  · rw [map_value_under]
    exact contents_plainLeaves items

@[simp] theorem contents_repeated
    (items : List Value) :
    (repeated items).contents =
      (items.map contents).sum := by
  rw [contents, leaves]
  exact contents_plainLeaves items

end Value

/- The flags and texts in the values of a dictionary. -/
def allContents
    (d : Dict Value) : Multiset Value :=
  (d.map fun entry => entry.2.contents).sum

/- The flags and texts in the values of a query. -/
def contents
    (q : Query) : Multiset Value :=
  allContents q.params

/- The flags and texts in what a slot holds, if anything. -/
def slotContents
    (slot : Option Value) : Multiset Value :=
  slot.elim 0 Value.contents

@[simp] theorem Value.contents_map
    (entries : Dict Value) :
    (map entries).contents = allContents entries := by
  rw [contents, leaves]
  induction entries with
  | nil => rfl
  | cons entry rest ih =>
      rcases entry with ⟨key, v⟩
      rw [entryLeaves, List.map_append, map_value_under,
        ← Multiset.coe_add, ih]
      simp [allContents, contents]

/- A value under segments has no further contents. -/
theorem contents_nest
    (segments : List Text)
    (v : Value) :
    (nest segments v).contents = v.contents := by
  induction segments with
  | nil => rfl
  | cons segment rest ih =>
      rw [nest]
      split
      · simp [ih]
      · simp [allContents, ih]

/- One more occurrence of a key adds its value. -/
theorem contents_push
    (old v : Value) :
    (old.push v).contents = old.contents + v.contents := by
  cases old <;> simp [Value.push]

/-
  If the altered value gives up some contents for others,
  so does the dictionary.
-/
theorem allContents_alter
    {key : Text}
    {f : Option Value → Value}
    {d : Dict Value}
    {lost added : Multiset Value}
    (hSlot :
      (f (Dict.get? d key)).contents + lost =
        slotContents (Dict.get? d key) + added) :
    allContents (Dict.alter key f d) + lost =
      allContents d + added := by
  induction d with
  | nil =>
      simpa [Dict.alter, allContents, Dict.get?,
        slotContents] using hSlot
  | cons entry rest ih =>
      rcases entry with ⟨k, v⟩
      by_cases hKey : k = key
      · simp only [Dict.get?, if_pos hKey, slotContents,
          Option.elim_some] at hSlot
        simp only [Dict.alter, if_pos hKey, allContents,
          List.map_cons, List.sum_cons]
        rw [add_right_comm, hSlot, add_right_comm]
      · rw [Dict.get?, if_neg hKey] at hSlot
        have hRest := ih hSlot
        simp only [allContents] at hRest
        simp only [Dict.alter, if_neg hKey, allContents,
          List.map_cons, List.sum_cons]
        rw [add_assoc, hRest, add_assoc]

/- The same for an item of a list. -/
theorem contents_set
    {i : Nat}
    {items : List Value}
    {old new : Value}
    (hGet : items[i]? = some old)
    {lost added : Multiset Value}
    (hItem :
      new.contents + lost = old.contents + added) :
    ((items.set i new).map Value.contents).sum + lost =
      (items.map Value.contents).sum + added := by
  induction items generalizing i with
  | nil => simp at hGet
  | cons item rest ih =>
      cases i with
      | zero =>
          have hEq : item = old := by simpa using hGet
          rw [List.set_cons_zero, List.map_cons,
            List.map_cons, List.sum_cons, List.sum_cons,
            add_right_comm, hItem, hEq, add_right_comm]
      | succ i =>
          have hRest := ih (by simpa using hGet)
          rw [List.set_cons_succ, List.map_cons,
            List.map_cons, List.sum_cons, List.sum_cons,
            add_assoc, hRest, add_assoc]

------------------------------------------------------------
-- What Is Given Up
------------------------------------------------------------

/- What a slot holds that is not read as items of a list. -/
def besideItems : Option Value → Multiset Value
  | some (.list _) => 0
  | some (.repeated _) => 0
  | slot => slotContents slot

/- What a slot holds that is not read as a map. -/
def besideEntries : Option Value → Multiset Value
  | some (.map _) => 0
  | slot => slotContents slot

theorem slotContents_eq_items
    (slot : Option Value) :
    slotContents slot =
      ((slotItems slot).map Value.contents).sum +
        besideItems slot := by
  rcases slot with _ | v
  · rfl
  · cases v <;> simp [slotContents, slotItems, besideItems]

theorem slotContents_eq_entries
    (slot : Option Value) :
    slotContents slot =
      allContents (slotEntries slot) +
        besideEntries slot := by
  rcases slot with _ | v
  · rfl
  · cases v <;>
      simp [slotContents, slotEntries, besideEntries,
        allContents]

/- The item of a list that a segment addresses. -/
def addressed
    (segment : Text)
    (items : List Value) : Option Value :=
  (Key.index? segment).bind fun i => items[i]?

/-
  What is given up when a value is written under segments
  into a slot: whatever the slot holds beside the list or
  the map that is written into, and so on below; and the
  item of a list that gives way as it is no map.
-/
def displaced :
    List Text → Option Value → Multiset Value
  | [], _ => 0
  | [segment], slot =>
      if Key.isIndex segment then besideItems slot
      else besideEntries slot
  | segment :: next :: rest, slot =>
      if Key.isIndex segment then
        besideItems slot +
          match addressed segment (slotItems slot) with
          | none => 0
          | some (.map inner) =>
              displaced rest (Dict.get? inner next)
          | some old => old.contents
      else
        besideEntries slot +
          displaced (next :: rest)
            (Dict.get? (slotEntries slot) segment)

/- Below a key of a map, only its own value can give way. -/
theorem displaced_key
    {segment : Text}
    (hKey : Key.isIndex segment = false)
    (rest : List Text)
    (slot : Option Value) :
    displaced (segment :: rest) slot =
      besideEntries slot +
        displaced rest
          (Dict.get? (slotEntries slot) segment) := by
  cases rest <;> simp [displaced, hKey]

/- An item at the end of the list of a slot. -/
theorem contents_list_append
    (slot : Option Value)
    (v : Value) :
    (Value.list (slotItems slot ++ [v])).contents +
        besideItems slot =
      slotContents slot + v.contents := by
  rw [Value.contents_list, List.map_append, List.sum_append,
    List.map_singleton, List.sum_singleton,
    slotContents_eq_items, add_right_comm]

/- An item in the place of another one. -/
theorem contents_list_set
    {slot : Option Value}
    {i : Nat}
    {old new : Value}
    (hGet : (slotItems slot)[i]? = some old)
    {lost added : Multiset Value}
    (hItem :
      new.contents + lost = old.contents + added) :
    (Value.list ((slotItems slot).set i new)).contents +
        (besideItems slot + lost) =
      slotContents slot + added := by
  have hSet := contents_set hGet hItem
  rw [Value.contents_list, slotContents_eq_items,
    add_left_comm, hSet]
  abel

/- An entry in the map of a slot. -/
theorem contents_map_alter
    {slot : Option Value}
    {key : Text}
    {f : Option Value → Value}
    {lost added : Multiset Value}
    (hEntry :
      (f (Dict.get? (slotEntries slot) key)).contents +
          lost =
        slotContents (Dict.get? (slotEntries slot) key) +
          added) :
    (Value.map
          (Dict.alter key f (slotEntries slot))).contents +
        (besideEntries slot + lost) =
      slotContents slot + added := by
  have hAlter := allContents_alter hEntry
  rw [Value.contents_map, slotContents_eq_entries,
    add_left_comm, hAlter]
  abel

/-
  A value that is written into a slot is there afterwards,
  and so is all that was there, apart from what is given
  up.
-/
theorem contents_place
    (v : Value) :
    (segments : List Text) → (slot : Option Value) →
      (place segments v slot).contents +
          displaced segments slot =
        slotContents slot + v.contents
  | [], none => by
      simp [place, displaced, slotContents]
  | [], some old => by
      simp [place, displaced, slotContents, contents_push]
  | [segment], slot => by
      have hPlain :=
        contents_place v [] (Dict.get? (slotEntries slot)
          segment)
      by_cases hIndex : Key.isIndex segment = true
      · simp only [place, displaced, if_pos hIndex]
        exact contents_list_append slot v
      · simp only [place, displaced, if_neg hIndex]
        have hMap := contents_map_alter hPlain
        rwa [displaced, add_zero] at hMap
  | segment :: next :: rest, slot => by
      have hFresh := contents_nest (next :: rest) v
      by_cases hIndex : Key.isIndex segment = true
      · simp only [place, displaced, if_pos hIndex]
        -- only a map at the index is written into
        cases hAddress : Key.index? segment with
        | none =>
            simp only [addressed, hAddress, Option.bind_none,
              add_zero]
            rw [contents_list_append, hFresh]
        | some i =>
            simp only [addressed, hAddress, Option.bind_some]
            cases hGet : (slotItems slot)[i]? with
            | none =>
                simp only [add_zero]
                rw [contents_list_append, hFresh]
            | some old =>
                have hItem :
                    (nest (next :: rest) v).contents +
                        old.contents =
                      old.contents + v.contents := by
                  rw [hFresh, add_comm]
                cases old with
                | map inner =>
                    apply contents_list_set hGet
                    rw [Value.contents_map, Value.contents_map]
                    exact allContents_alter
                      (contents_place v rest _)
                | flag => exact contents_list_set hGet hItem
                | text t => exact contents_list_set hGet hItem
                | list is => exact contents_list_set hGet hItem
                | repeated is =>
                    exact contents_list_set hGet hItem
      · simp only [place, displaced, if_neg hIndex]
        exact contents_map_alter
          (contents_place v (next :: rest) _)

------------------------------------------------------------
-- Nothing Given Up
------------------------------------------------------------

/-
  Whether what a slot holds suits the segments that a value
  is written under: nothing, or anything for a plain key;
  a map with what suits the key; or a list, or a key that
  was repeated, where the value is added at the end, or to
  a map that suits it.
-/
inductive Suits : List Text → Option Value → Prop where
  | free
      (segments : List Text) :
      Suits segments none
  | plain
      (old : Value) :
      Suits [] (some old)
  | entry
      {segment : Text}
      {rest : List Text}
      {entries : Dict Value}
      (hKey : Key.isIndex segment = false)
      (hRest : Suits rest (Dict.get? entries segment)) :
      Suits (segment :: rest) (some (.map entries))
  | added
      {segment : Text}
      {rest : List Text}
      {old : Value}
      {items : List Value}
      (hIndex : Key.isIndex segment = true)
      (hItems : old = .list items ∨ old = .repeated items)
      (hEnd : rest = [] ∨ addressed segment items = none) :
      Suits (segment :: rest) (some old)
  | item
      {segment next : Text}
      {rest : List Text}
      {old : Value}
      {items : List Value}
      {inner : Dict Value}
      (hIndex : Key.isIndex segment = true)
      (hItems : old = .list items ∨ old = .repeated items)
      (hItem :
        addressed segment items = some (.map inner))
      (hRest : Suits rest (Dict.get? inner next)) :
      Suits (segment :: next :: rest) (some old)

/- All of a list, or of a repeated key, is kept. -/
theorem kept_as_items
    {old : Value}
    {items : List Value}
    (hItems : old = .list items ∨ old = .repeated items) :
    besideItems (some old) = 0 ∧
      slotItems (some old) = items := by
  rcases hItems with rfl | rfl <;> exact ⟨rfl, rfl⟩

/- Where nothing is, nothing is given up. -/
theorem displaced_none
    (segments : List Text) :
    displaced segments none = 0 := by
  induction segments with
  | nil => rfl
  | cons segment rest ih =>
      by_cases hIndex : Key.isIndex segment = true
      · cases rest with
        | nil => simp [displaced, hIndex, besideItems,
            slotContents]
        | cons next rest =>
            simp [displaced, hIndex, besideItems,
              slotContents, slotItems, addressed]
      · rw [displaced_key (by simpa using hIndex)]
        simpa [besideEntries, slotContents, slotEntries,
          Dict.get?] using ih

/- What suits the segments is not given up. -/
theorem displaced_of_suits
    {segments : List Text}
    {slot : Option Value}
    (hSuits : Suits segments slot) :
    displaced segments slot = 0 := by
  induction hSuits with
  | free segments => exact displaced_none segments
  | plain old => rfl
  | entry hKey hRest ih =>
      rw [displaced_key hKey, slotEntries, ih]
      rfl
  | @added segment rest old items hIndex hItems hEnd =>
      rcases kept_as_items hItems with ⟨hBeside, hSlot⟩
      cases rest with
      | nil => rw [displaced, if_pos hIndex, hBeside]
      | cons next rest =>
          rcases hEnd with hNil | hEnd
          · cases hNil
          · rw [displaced, if_pos hIndex, hBeside, hSlot,
              hEnd]
            rfl
  | item hIndex hItems hItem hRest ih =>
      rcases kept_as_items hItems with ⟨hBeside, hSlot⟩
      rw [displaced, if_pos hIndex, hBeside, hSlot, hItem]
      simpa using ih

/- What can be read is never without contents. -/
theorem Image.contents_ne_zero
    {v : Value}
    (hSlot : Image.Slot v) :
    v.contents ≠ 0 := by
  have hSome := (Image.rebuilt_slot v hSlot).leaves_ne_nil
  simpa [Value.contents] using hSome

theorem Image.contents_ne_zero_of_chain
    {v : Value}
    (hChain : Image.Chain v) :
    v.contents ≠ 0 := by
  rcases hChain with ⟨segments, leaf, hLeaf, -, rfl⟩
  rw [contents_nest, Value.contents_of_isLeaf hLeaf]
  exact Multiset.singleton_ne_zero leaf

/- A slot that gives up nothing is read as a list. -/
theorem items_of_besideItems
    {old : Value}
    (hSlot : Image.Slot old)
    (hNone : besideItems (some old) = 0) :
    ∃ items, old = .list items ∨ old = .repeated items := by
  cases old with
  | list items => exact ⟨items, Or.inl rfl⟩
  | repeated items => exact ⟨items, Or.inr rfl⟩
  | flag => exact absurd hNone (Image.contents_ne_zero hSlot)
  | text t =>
      exact absurd hNone (Image.contents_ne_zero hSlot)
  | map entries =>
      exact absurd hNone (Image.contents_ne_zero hSlot)

/- A slot that gives up nothing is read as a map. -/
theorem entries_of_besideEntries
    {old : Value}
    (hSlot : Image.Slot old)
    (hNone : besideEntries (some old) = 0) :
    ∃ entries, old = .map entries := by
  cases old with
  | map entries => exact ⟨entries, rfl⟩
  | flag => exact absurd hNone (Image.contents_ne_zero hSlot)
  | text t =>
      exact absurd hNone (Image.contents_ne_zero hSlot)
  | list items =>
      exact absurd hNone (Image.contents_ne_zero hSlot)
  | repeated items =>
      exact absurd hNone (Image.contents_ne_zero hSlot)

/- What a key of a map holds is described, if anything. -/
theorem Image.slotIfAny_get?
    {entries : Dict Value}
    (hEntries : Image.Entries entries)
    (key : Text) :
    Image.SlotIfAny (Dict.get? entries key) := by
  intro v hGet
  rw [Image.entries_iff] at hEntries
  exact hEntries (key, v) (Dict.mem_of_get? hGet)

/- An item that is no map is a leaf, or leads to one. -/
theorem Image.contents_ne_zero_of_item
    {i : Nat}
    {item : Value}
    (hItem : Image.Item i item)
    (hOther : ∀ inner, item ≠ .map inner) :
    item.contents ≠ 0 := by
  cases item with
  | flag => exact contents_ne_zero (slot_of_isLeaf rfl)
  | text t => exact contents_ne_zero (slot_of_isLeaf rfl)
  | list items =>
      simp only [Image.Item] at hItem
      exact contents_ne_zero_of_chain hItem
  | repeated items => simp [Image.Item] at hItem
  | map inner => exact absurd rfl (hOther inner)

theorem Image.entries_of_item
    {i : Nat}
    {inner : Dict Value}
    (hItem : Image.Item i (.map inner)) :
    Image.Entries inner := by
  simp only [Image.Item] at hItem
  rcases hItem with hChain | ⟨-, -, hEntries⟩
  · exact (Image.map_of_chain hChain).2
  · exact hEntries

/- Where nothing is given up, the slot suits the segments. -/
theorem suits_of_displaced :
    (segments : List Text) → (slot : Option Value) →
      Image.SlotIfAny slot →
        displaced segments slot = 0 → Suits segments slot
  | segments, none, _, _ => .free segments
  | [], some old, _, _ => .plain old
  | [segment], some old, hSlot, hNone => by
      have hOld := hSlot old rfl
      by_cases hIndex : Key.isIndex segment = true
      · rw [displaced, if_pos hIndex] at hNone
        rcases items_of_besideItems hOld hNone with
          ⟨items, hItems⟩
        exact .added hIndex hItems (Or.inl rfl)
      · have hKey : Key.isIndex segment = false := by
          simpa using hIndex
        rw [displaced, if_neg hIndex] at hNone
        rcases entries_of_besideEntries hOld hNone with
          ⟨entries, rfl⟩
        refine .entry hKey ?_
        cases Dict.get? entries segment with
        | none => exact .free []
        | some v => exact .plain v
  | segment :: next :: rest, some old, hSlot, hNone => by
      have hOld := hSlot old rfl
      by_cases hIndex : Key.isIndex segment = true
      · rw [displaced, if_pos hIndex, add_eq_zero] at hNone
        rcases hNone with ⟨hBeside, hItem⟩
        rcases items_of_besideItems hOld hBeside with
          ⟨items, hItems⟩
        have hAll := Image.items_slotItems hSlot
        rw [(kept_as_items hItems).2] at hItem hAll
        cases hFound : addressed segment items with
        | none => exact .added hIndex hItems (Or.inr hFound)
        | some item =>
            rcases Option.bind_eq_some_iff.mp hFound with
              ⟨i, -, hGet⟩
            have hThere :=
              Image.item_of_getElem? hAll hGet
            have hLost (hOther : ∀ inner, item ≠ .map inner) :=
              Image.contents_ne_zero_of_item hThere hOther
            rw [hFound] at hItem
            cases item with
            | map inner =>
                have hInner := Image.slotIfAny_get?
                  (Image.entries_of_item hThere) next
                exact .item hIndex hItems hFound
                  (suits_of_displaced rest _ hInner hItem)
            | flag => exact absurd hItem (hLost (by simp))
            | text t => exact absurd hItem (hLost (by simp))
            | list is => exact absurd hItem (hLost (by simp))
            | repeated is =>
                exact absurd hItem (hLost (by simp))
      · have hKey : Key.isIndex segment = false := by
          simpa using hIndex
        rw [displaced_key hKey, add_eq_zero] at hNone
        rcases hNone with ⟨hBeside, hRest⟩
        rcases entries_of_besideEntries hOld hBeside with
          ⟨entries, rfl⟩
        simp only [Image.Slot] at hOld
        exact .entry hKey
          (suits_of_displaced (next :: rest) _
            (Image.slotIfAny_get? hOld.2 segment) hRest)

theorem displaced_eq_zero_iff
    {segments : List Text}
    {slot : Option Value}
    (hSlot : Image.SlotIfAny slot) :
    displaced segments slot = 0 ↔ Suits segments slot :=
  ⟨suits_of_displaced segments slot hSlot,
    displaced_of_suits⟩

------------------------------------------------------------
-- Pairs One After Another
------------------------------------------------------------

/- What is given up when one more pair is read. -/
def displacedBy
    (params : Dict Value)
    (pair : Pair) : Multiset Value :=
  let key := Key.split pair.key
  displaced key.segments (Dict.get? params key.root)

/- Whether a pair is read without giving anything up. -/
def Pair.SuitedBy
    (pair : Pair)
    (params : Dict Value) : Prop :=
  Suits (Key.split pair.key).segments
    (Dict.get? params (Key.split pair.key).root)

/- What is given up when pairs are read one by one. -/
def lost : Dict Value → List Pair → Multiset Value
  | _, [] => 0
  | params, pair :: rest =>
      displacedBy params pair +
        lost (insertPair params pair) rest

/- A pair adds its value to what is kept. -/
theorem contents_insertPair
    (params : Dict Value)
    {pair : Pair}
    (hValue : pair.value.isLeaf = true) :
    allContents (insertPair params pair) +
        displacedBy params pair =
      allContents params + {pair.value} := by
  rw [← Value.contents_of_isLeaf hValue]
  exact allContents_alter (contents_place pair.value _ _)

/- Pairs add their values, except for what is given up. -/
theorem contents_foldl
    {read : List Pair}
    (hRead : ∀ pair ∈ read, pair.value.isLeaf = true)
    (params : Dict Value) :
    allContents (read.foldl insertPair params) +
        lost params read =
      allContents params + ↑(read.map Pair.value) := by
  induction read generalizing params with
  | nil => simp [lost]
  | cons pair rest ih =>
      have hFirst := contents_insertPair params
        (hRead pair (by simp))
      have hRest := ih
        (fun p hMem => hRead p (List.mem_cons_of_mem _ hMem))
        (insertPair params pair)
      rw [List.foldl_cons, lost, add_left_comm, hRest,
        ← add_assoc, add_comm (displacedBy params pair),
        hFirst, List.map_cons, ← Multiset.cons_coe,
        ← Multiset.singleton_add, add_assoc]

/- Nothing is lost if every pair is suited in its turn. -/
theorem lost_eq_zero_iff
    {read : List Pair}
    (hRead : ∀ pair ∈ read,
      pair.key ≠ [] ∧ pair.value.isLeaf = true)
    {params : Dict Value}
    (hParams : Image.Params params) :
    lost params read = 0 ↔
      ∀ before pair after,
        read = before ++ pair :: after →
          pair.SuitedBy
            (before.foldl insertPair params) := by
  induction read generalizing params with
  | nil => simp [lost]
  | cons first rest ih =>
      rcases hRead first (by simp) with ⟨hKey, hValue⟩
      have hRest := ih
        (fun p hMem => hRead p (List.mem_cons_of_mem _ hMem))
        (Image.params_insertPair hParams hKey hValue)
      have hFirst :
          displacedBy params first = 0 ↔
            first.SuitedBy params := by
        apply displaced_eq_zero_iff
        intro v hGet
        exact (hParams.roots _ (Dict.mem_of_get? hGet)).slot
      rw [lost, add_eq_zero, hFirst, hRest]
      constructor
      · rintro ⟨hSuited, hLater⟩ before pair after hSplit
        cases before with
        | nil =>
            rw [List.nil_append, List.cons.injEq] at hSplit
            rw [← hSplit.1]
            exact hSuited
        | cons earlier before =>
            rw [List.cons_append, List.cons.injEq] at hSplit
            rw [← hSplit.1]
            exact hLater before pair after hSplit.2
      · intro hAll
        refine ⟨hAll [] first rest rfl, ?_⟩
        intro before pair after hSplit
        exact hAll (first :: before) pair after
          (by rw [hSplit, List.cons_append])

------------------------------------------------------------
-- Query Strings
------------------------------------------------------------

/- The values of the pairs of a query string. -/
def values
    (input : Text) : Multiset Value :=
  ↑((pairs input).map Pair.value)

/-
  What a query string is read as holds the values of its
  pairs, apart from those given up on the way, and nothing
  else.  None is given up just if every pair suits what the
  pairs before it have left under its key.
-/
theorem contents_parse
    (input : Text) :
    (parse input).contents + lost [] (pairs input) =
        values input ∧
      ((parse input).contents = values input ↔
        ∀ before pair after,
          pairs input = before ++ pair :: after →
            pair.SuitedBy (before.foldl insertPair [])) := by
  have hRead : ∀ pair ∈ pairs input,
      pair.key ≠ [] ∧ pair.value.isLeaf = true := by
    intro pair hMem
    rcases List.mem_filterMap.mp hMem with ⟨piece, -, hPair⟩
    exact Image.leaf_of_ofText? hPair
  have hEmpty : Image.Params [] :=
    { distinct := by simp [Dict.keys]
      roots := by simp }
  have hAll :
      (parse input).contents + lost [] (pairs input) =
        values input := by
    have hFold := contents_foldl
      (fun pair hMem => (hRead pair hMem).2) []
    simpa [allContents, contents, parse, values] using hFold
  refine ⟨hAll, ?_⟩
  rw [← lost_eq_zero_iff hRead hEmpty, ← hAll]
  exact left_eq_add

/- A repeated key joins a list, a single one gives way. -/
example :
    (parse "a=1&a=2&a[]=3".toList).params =
        [("a".toList,
          .list
            [.text "1".toList, .text "2".toList,
              .text "3".toList])] ∧
      (parse "a=1&a[]=2".toList).params =
        [("a".toList, .list [.text "2".toList])] :=
  ⟨rfl, rfl⟩

end Query

end ComponentLoader
