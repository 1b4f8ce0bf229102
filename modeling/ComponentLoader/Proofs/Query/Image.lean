import ComponentLoader.Proofs.Dict
import ComponentLoader.Proofs.Query.Leaves

/-
  The values that a query string can give.

  A list holds leaves, maps, and lists of a single leaf; a
  repeated key holds leaves, of which the first may be a
  map instead; a map has a first key that addresses no
  list.  A map with several leaves in a list stands at a
  position that can be addressed, since it took a second
  pair to write it.

  Main declarations:
    * `Image.Slot`
    * `Image.slot_place`
    * `Image.Params`
    * `Image.params_parse`
-/

------------------------------------------------------------
-- The Invariant
------------------------------------------------------------

namespace ComponentLoader

namespace Query

namespace Image

/- A single leaf under any number of segments. -/
def Chain
    (v : Value) : Prop :=
  ∃ segments leaf,
    leaf.isLeaf = true ∧
      (∀ segment ∈ segments, ']' ∉ segment) ∧
      v = nest segments leaf

/-
  The keys of a map.  The first one addresses no list; the
  others may do so only where maps are items of a list,
  that is, where keys are free.
-/
structure MapKeys
    (free : Bool)
    (keys : List Text) : Prop where
  distinct : keys.Nodup
  closed : ∀ key ∈ keys, ']' ∉ key
  first : ∃ key, keys.head? = some key ∧
    Key.isIndex key = false
  plain : free = false →
    ∀ key ∈ keys, Key.isIndex key = false

mutual

/- What a key can hold. -/
def Slot : Value → Prop
  | .flag => True
  | .text _ => True
  | .list items => items ≠ [] ∧ Items 0 items
  | .repeated items => Occurrences items
  | .map entries =>
      MapKeys false (Dict.keys entries) ∧ Entries entries
termination_by structural v => v

/- What a list can hold from a position on. -/
def Items
    (i : Nat) : List Value → Prop
  | [] => True
  | item :: rest => Item i item ∧ Items (i + 1) rest
termination_by structural items => items

/- What a list can hold at a position. -/
def Item
    (i : Nat) : Value → Prop
  | .flag => True
  | .text _ => True
  | .list items => Chain (.list items)
  | .repeated _ => False
  | .map entries =>
      Chain (.map entries) ∨
        (i < UInt64.size ∧
          MapKeys true (Dict.keys entries) ∧
          Entries entries)
termination_by structural v => v

/- What a key that is written several times can hold. -/
def Occurrences : List Value → Prop
  | [] => False
  | first :: rest =>
      Occurrence first ∧ rest ≠ [] ∧
        ∀ v ∈ rest, v.isLeaf = true
termination_by structural items => items

/- What a key can hold before it is written again. -/
def Occurrence : Value → Prop
  | .map entries =>
      MapKeys false (Dict.keys entries) ∧ Entries entries
  | .flag => True
  | .text _ => True
  | .list _ => False
  | .repeated _ => False
termination_by structural v => v

/- What the entries of a map can hold. -/
def Entries : List (Text × Value) → Prop
  | [] => True
  | (_, item) :: rest => Slot item ∧ Entries rest
termination_by structural entries => entries

end

/- What the slot of a key can hold, if anything. -/
def SlotIfAny
    (slot : Option Value) : Prop :=
  ∀ v, slot = some v → Slot v

------------------------------------------------------------
-- Parts Of The Invariant
------------------------------------------------------------

theorem entries_iff
    (entries : Dict Value) :
    Entries entries ↔
      ∀ entry ∈ entries, Slot entry.2 := by
  induction entries with
  | nil => simp [Entries]
  | cons entry rest ih =>
      rcases entry with ⟨key, item⟩
      simp [Entries, ih]

theorem slot_of_isLeaf
    {v : Value}
    (hLeaf : v.isLeaf = true) :
    Slot v := by
  cases v <;> simp_all [Value.isLeaf, Slot]

theorem item_of_isLeaf
    {v : Value}
    (hLeaf : v.isLeaf = true)
    (i : Nat) :
    Item i v := by
  cases v <;> simp_all [Value.isLeaf, Item]

/- A single leaf may stand anywhere in a list. -/
theorem item_of_chain
    {v : Value}
    (hChain : Chain v)
    (i : Nat) :
    Item i v := by
  cases v with
  | flag => simp [Item]
  | text t => simp [Item]
  | list items => simpa [Item] using hChain
  | map entries => simpa [Item] using Or.inl hChain
  | repeated items =>
      rcases hChain with ⟨segments, leaf, hLeaf, -, hNest⟩
      cases segments with
      | nil =>
          rw [nest] at hNest
          subst hNest
          simp [Value.isLeaf] at hLeaf
      | cons segment rest =>
          rw [nest] at hNest
          split at hNest <;> exact absurd hNest (by simp)

theorem items_append
    {i : Nat}
    {items : List Value}
    (hItems : Items i items)
    {v : Value}
    (hLast : Item (i + items.length) v) :
    Items i (items ++ [v]) := by
  induction items generalizing i with
  | nil => simpa [Items] using hLast
  | cons item rest ih =>
      simp only [Items] at hItems
      have hLast' : Item (i + 1 + rest.length) v := by
        have hEq : i + 1 + rest.length =
            i + (item :: rest).length := by
          simp only [List.length_cons]
          omega
        rw [hEq]
        exact hLast
      simpa [Items] using ⟨hItems.1, ih hItems.2 hLast'⟩

theorem items_set
    {i j : Nat}
    {items : List Value}
    (hItems : Items i items)
    {v : Value}
    (hNew : Item (i + j) v) :
    Items i (items.set j v) := by
  induction items generalizing i j with
  | nil => simp [Items]
  | cons item rest ih =>
      simp only [Items] at hItems
      cases j with
      | zero => simpa [Items] using ⟨hNew, hItems.2⟩
      | succ j =>
          have hNew' : Item (i + 1 + j) v := by
            have hEq : i + 1 + j = i + (j + 1) := by omega
            rw [hEq]
            exact hNew
          simpa [Items] using ⟨hItems.1, ih hItems.2 hNew'⟩

theorem item_of_getElem?
    {i j : Nat}
    {items : List Value}
    (hItems : Items i items)
    {v : Value}
    (hGet : items[j]? = some v) :
    Item (i + j) v := by
  induction items generalizing i j with
  | nil => simp at hGet
  | cons item rest ih =>
      simp only [Items] at hItems
      cases j with
      | zero =>
          have hEq : item = v := by simpa using hGet
          simpa [hEq] using hItems.1
      | succ j =>
          have hRest := ih hItems.2 (by simpa using hGet)
          have hEq : i + (j + 1) = i + 1 + j := by omega
          rw [hEq]
          exact hRest

/- A key whose keys are plain may also have them free. -/
theorem MapKeys.free
    {keys : List Text}
    (hKeys : MapKeys false keys) :
    MapKeys true keys :=
  { hKeys with plain := fun hFalse => by simp at hFalse }

/- The items of a slot may be those of a list. -/
theorem items_slotItems
    {slot : Option Value}
    (hSlot : SlotIfAny slot) :
    Items 0 (slotItems slot) := by
  match slot with
  | none => simp [slotItems, Items]
  | some (.flag) => simp [slotItems, Items]
  | some (.text _) => simp [slotItems, Items]
  | some (.map _) => simp [slotItems, Items]
  | some (.list items) =>
      have hList := hSlot _ rfl
      simp only [Slot] at hList
      simpa [slotItems] using hList.2
  | some (.repeated items) =>
      have hAll := hSlot _ rfl
      simp only [Slot] at hAll
      cases items with
      | nil => simp [slotItems, Items]
      | cons first rest =>
          simp only [Occurrences] at hAll
          rcases hAll with ⟨hFirst, -, hRest⟩
          have hHead : Item 0 first := by
            cases first with
            | flag => simp [Item]
            | text t => simp [Item]
            | list items => simp [Occurrence] at hFirst
            | repeated items => simp [Occurrence] at hFirst
            | map entries =>
                simp only [Occurrence] at hFirst
                simp only [Item]
                exact Or.inr
                  ⟨by decide, hFirst.1.free, hFirst.2⟩
          have hTail : ∀ (more : List Value) (i : Nat),
              (∀ v ∈ more, v.isLeaf = true) →
              Items i more := by
            intro more
            induction more with
            | nil => intro i _; simp [Items]
            | cons v vs ih =>
                intro i hLeaves
                simp only [Items]
                exact ⟨item_of_isLeaf
                    (hLeaves v (by simp)) i,
                  ih (i + 1) fun w hMem =>
                    hLeaves w (by simp [hMem])⟩
          simpa [slotItems, Items] using
            ⟨hHead, hTail rest 1 hRest⟩

/- The entries of a slot may be those of a map. -/
theorem entries_slotEntries
    {slot : Option Value}
    (hSlot : SlotIfAny slot) :
    Entries (slotEntries slot) ∧
      (slotEntries slot ≠ [] →
        MapKeys false (Dict.keys (slotEntries slot))) := by
  match slot with
  | none => simp [slotEntries, Entries]
  | some (.flag) => simp [slotEntries, Entries]
  | some (.text _) => simp [slotEntries, Entries]
  | some (.list _) => simp [slotEntries, Entries]
  | some (.repeated _) => simp [slotEntries, Entries]
  | some (.map entries) =>
      have hMap := hSlot _ rfl
      simp only [Slot] at hMap
      exact ⟨hMap.2, fun _ => hMap.1⟩

------------------------------------------------------------
-- Altered Maps
------------------------------------------------------------

/- Altering one entry keeps the others. -/
theorem entries_alter
    {entries : Dict Value}
    (hEntries : Entries entries)
    {f : Option Value → Value}
    (hNew : ∀ slot, SlotIfAny slot → Slot (f slot))
    (key : Text) :
    Entries (Dict.alter key f entries) := by
  rw [entries_iff] at hEntries ⊢
  intro entry hMem
  rcases Dict.mem_alter hMem with
    hOld | ⟨-, hNone | ⟨v, hOld, hSome⟩⟩
  · exact hEntries entry hOld
  · rw [hNone]
    exact hNew none (by intro v hEq; simp at hEq)
  · rw [hSome]
    apply hNew
    intro w hEq
    rw [← Option.some.inj hEq]
    exact hEntries (key, v) hOld

/- A key may be added to a map that has one already. -/
theorem mapKeys_alter
    {free : Bool}
    {entries : Dict Value}
    {key : Text}
    (hKeys : MapKeys free (Dict.keys entries))
    (hClosed : ']' ∉ key)
    (hPlain : free = false → Key.isIndex key = false)
    (f : Option Value → Value) :
    MapKeys free (Dict.keys (Dict.alter key f entries)) := by
  have hSome : entries ≠ [] := by
    rintro rfl
    rcases hKeys.first with ⟨first, hHead, -⟩
    simp [Dict.keys] at hHead
  exact
    { distinct := Dict.nodup_keys_alter hKeys.distinct
      closed := by
        intro k hMem
        rcases Dict.mem_keys_alter hMem with hMem | rfl
        · exact hKeys.closed k hMem
        · exact hClosed
      first := by
        rw [Dict.head?_keys_alter hSome]
        exact hKeys.first
      plain := by
        intro hFree k hMem
        rcases Dict.mem_keys_alter hMem with hMem | rfl
        · exact hKeys.plain hFree k hMem
        · exact hPlain hFree }

/- A key that addresses no list may be added anywhere. -/
theorem mapKeys_alter_plain
    {entries : Dict Value}
    {key : Text}
    (hKeys : entries ≠ [] →
      MapKeys false (Dict.keys entries))
    (hClosed : ']' ∉ key)
    (hPlain : Key.isIndex key = false)
    (f : Option Value → Value) :
    MapKeys false (Dict.keys (Dict.alter key f entries)) := by
  by_cases hEmpty : entries = []
  · subst hEmpty
    exact
      { distinct := by simp [Dict.alter, Dict.keys]
        closed := by simpa [Dict.alter, Dict.keys] using hClosed
        first := ⟨key, by simp [Dict.alter, Dict.keys], hPlain⟩
        plain := fun _ => by
          simpa [Dict.alter, Dict.keys] using hPlain }
  · exact mapKeys_alter (hKeys hEmpty) hClosed
      (fun _ => hPlain) f

------------------------------------------------------------
-- Single Leaves
------------------------------------------------------------

/- A single leaf may stand under a key. -/
theorem slot_nest
    {segments : List Text}
    (hSegments : ∀ segment ∈ segments, ']' ∉ segment)
    {leaf : Value}
    (hLeaf : leaf.isLeaf = true) :
    Slot (nest segments leaf) := by
  induction segments with
  | nil => exact slot_of_isLeaf hLeaf
  | cons segment rest ih =>
      have hRest : ∀ s ∈ rest, ']' ∉ s := fun s hMem =>
        hSegments s (List.mem_cons_of_mem segment hMem)
      by_cases hIndex : Key.isIndex segment = true
      · have hItem : Item 0 (nest rest leaf) :=
          item_of_chain ⟨rest, leaf, hLeaf, hRest, rfl⟩ 0
        simp [nest, hIndex, Slot, Items, hItem]
      · have hPlain : Key.isIndex segment = false := by
          simpa using hIndex
        have hKeys : MapKeys false (Dict.keys
            (Dict.alter segment (fun _ => nest rest leaf)
              [])) :=
          mapKeys_alter_plain (fun hNe => absurd rfl hNe)
            (hSegments segment (by simp)) hPlain _
        simp only [nest, hPlain, Bool.false_eq_true,
          if_false, Slot, Entries, and_true]
        exact ⟨hKeys, ih hRest⟩

/- A map with a single leaf is one with free keys. -/
theorem map_of_chain
    {entries : Dict Value}
    (hChain : Chain (.map entries)) :
    MapKeys true (Dict.keys entries) ∧ Entries entries := by
  rcases hChain with ⟨segments, leaf, hLeaf, hSegments, hNest⟩
  have hSlot := slot_nest hSegments hLeaf
  rw [← hNest] at hSlot
  simp only [Slot] at hSlot
  exact ⟨hSlot.1.free, hSlot.2⟩

------------------------------------------------------------
-- Writing Keeps The Invariant
------------------------------------------------------------

/- One more occurrence of a key. -/
theorem slot_push
    {old value : Value}
    (hOld : Slot old)
    (hValue : value.isLeaf = true) :
    Slot (old.push value) := by
  cases old with
  | flag => simp [Value.push, Slot, Occurrences, Occurrence,
      hValue]
  | text t => simp [Value.push, Slot, Occurrences,
      Occurrence, hValue]
  | list items =>
      simp only [Slot] at hOld
      simp only [Value.push, Slot]
      exact ⟨by simp,
        items_append hOld.2 (item_of_isLeaf hValue _)⟩
  | repeated items =>
      simp only [Slot] at hOld
      cases items with
      | nil => simp [Occurrences] at hOld
      | cons first rest =>
          simp only [Occurrences] at hOld
          simp only [Value.push, Slot, List.cons_append,
            Occurrences]
          refine ⟨hOld.1, by simp, ?_⟩
          intro v hMem
          rcases List.mem_append.mp hMem with hMem | hMem
          · exact hOld.2.2 v hMem
          · rw [List.mem_singleton.mp hMem]
            exact hValue
  | map entries =>
      simp only [Slot] at hOld
      simp only [Value.push, Slot, Occurrences, Occurrence]
      exact ⟨hOld, by simp, by simpa using hValue⟩

/- A value that is added at the end of a list. -/
theorem slot_list_append
    {slot : Option Value}
    (hSlot : SlotIfAny slot)
    {v : Value}
    (hItem : ∀ i, Item i v) :
    Slot (.list (slotItems slot ++ [v])) := by
  simp only [Slot]
  exact ⟨by simp,
    items_append (items_slotItems hSlot) (hItem _)⟩

/- An item of a list that is put in the place of another. -/
theorem slot_list_set
    {slot : Option Value}
    (hSlot : SlotIfAny slot)
    {i : Nat}
    {old v : Value}
    (hGet : (slotItems slot)[i]? = some old)
    (hItem : Item i v) :
    Slot (.list ((slotItems slot).set i v)) := by
  have hSome : slotItems slot ≠ [] := by
    intro hEmpty
    simp [hEmpty] at hGet
  have hItem' : Item (0 + i) v := by
    rw [Nat.zero_add]
    exact hItem
  simp only [Slot]
  exact ⟨by simpa using hSome,
    items_set (items_slotItems hSlot) hItem'⟩

/- The position that a segment addresses fits 64 bits. -/
theorem lt_of_index?
    {segment : Text}
    {i : Nat}
    (hIndex : Key.index? segment = some i) :
    i < UInt64.size := by
  unfold Key.index? at hIndex
  split at hIndex
  · simp at hIndex
  · dsimp only at hIndex
    split at hIndex
    · next hFits =>
        rw [← Option.some.inj hIndex]
        exact hFits
    · simp at hIndex

/- A map in a list that is written into once more. -/
theorem item_map_alter
    {i : Nat}
    {inner : Dict Value}
    (hItem : Item i (.map inner))
    (hFits : i < UInt64.size)
    {key : Text}
    (hKey : ']' ∉ key)
    {f : Option Value → Value}
    (hNew : ∀ slot, SlotIfAny slot → Slot (f slot)) :
    Item i (.map (Dict.alter key f inner)) := by
  have hInner : MapKeys true (Dict.keys inner) ∧
      Entries inner := by
    simp only [Item] at hItem
    rcases hItem with hChain | ⟨-, hKeys, hEntries⟩
    · exact map_of_chain hChain
    · exact ⟨hKeys, hEntries⟩
  have hFree :=
    mapKeys_alter hInner.1 hKey Bool.noConfusion f
  simp only [Item]
  exact Or.inr ⟨hFits, hFree,
    entries_alter hInner.2 hNew key⟩

/- A value written into the map of a slot. -/
theorem slot_map_alter
    {slot : Option Value}
    (hSlot : SlotIfAny slot)
    {key : Text}
    (hClosed : ']' ∉ key)
    (hPlain : Key.isIndex key = false)
    {f : Option Value → Value}
    (hNew : ∀ slot, SlotIfAny slot → Slot (f slot)) :
    Slot (.map (Dict.alter key f (slotEntries slot))) := by
  rcases entries_slotEntries hSlot with ⟨hEntries, hKeys⟩
  simp only [Slot]
  exact ⟨mapKeys_alter_plain hKeys hClosed hPlain f,
    entries_alter hEntries hNew key⟩

/- Writing a leaf under segments keeps the invariant. -/
theorem slot_place
    {value : Value}
    (hValue : value.isLeaf = true) :
    (segments : List Text) →
      (∀ segment ∈ segments, ']' ∉ segment) →
      ∀ slot, SlotIfAny slot →
        Slot (place segments value slot)
  | [], _, none, _ => by
      simpa [place] using slot_of_isLeaf hValue
  | [], _, some old, hSlot => by
      simpa [place] using slot_push (hSlot old rfl) hValue
  | [segment], hSegments, slot, hSlot => by
      have hNil := slot_place hValue [] (by simp)
      by_cases hIndex : Key.isIndex segment = true
      · simp only [place, hIndex, if_true]
        exact slot_list_append hSlot (item_of_isLeaf hValue)
      · have hPlain : Key.isIndex segment = false := by
          simpa using hIndex
        simp only [place, hPlain, Bool.false_eq_true,
          if_false]
        exact slot_map_alter hSlot
          (hSegments segment (by simp)) hPlain hNil
  | segment :: next :: rest, hSegments, slot, hSlot => by
      have hNext : ∀ s ∈ next :: rest, ']' ∉ s :=
        fun s hMem =>
          hSegments s (List.mem_cons_of_mem segment hMem)
      have hRest : ∀ s ∈ rest, ']' ∉ s := fun s hMem =>
        hNext s (List.mem_cons_of_mem next hMem)
      have hInner := slot_place hValue rest hRest
      have hOuter := slot_place hValue (next :: rest) hNext
      have hFresh : ∀ i, Item i (nest (next :: rest) value) :=
        item_of_chain
          ⟨next :: rest, value, hValue, hNext, rfl⟩
      by_cases hIndex : Key.isIndex segment = true
      · simp only [place, hIndex, if_true]
        -- the four ways to write into a list
        split
        · exact slot_list_append hSlot hFresh
        · next i hAddress =>
            split
            · exact slot_list_append hSlot hFresh
            · next inner hGet =>
                apply slot_list_set hSlot hGet
                have hItem := item_of_getElem?
                  (items_slotItems hSlot) hGet
                rw [Nat.zero_add] at hItem
                exact item_map_alter hItem
                  (lt_of_index? hAddress)
                  (hNext next (by simp)) hInner
            · next old _ hGet =>
                exact slot_list_set hSlot hGet (hFresh i)
      · have hPlain : Key.isIndex segment = false := by
          simpa using hIndex
        simp only [place, hPlain, Bool.false_eq_true,
          if_false]
        exact slot_map_alter hSlot
          (hSegments segment (by simp)) hPlain hOuter

------------------------------------------------------------
-- Parameters
------------------------------------------------------------

/- A value that is written without brackets. -/
def Bare : Value → Prop
  | .flag => True
  | .text _ => True
  | .repeated items => ∀ v ∈ items, v.isLeaf = true
  | .list _ => False
  | .map _ => False

/-
  A key of a query and what it holds.  A key that contains
  a bracket has none of its own behind it.
-/
structure Root
    (key : Text)
    (value : Value) : Prop where
  nonempty : key ≠ []
  whole : Key.split key = { root := key, segments := [] }
  slot : Slot value
  bare : '[' ∈ key → Bare value

/- The parameters that a query string can give. -/
structure Params
    (params : Dict Value) : Prop where
  distinct : (Dict.keys params).Nodup
  roots : ∀ entry ∈ params, Root entry.1 entry.2

/- A plain pair leaves a value without brackets. -/
theorem bare_place_nil
    {value : Value}
    (hValue : value.isLeaf = true)
    {slot : Option Value}
    (hSlot : ∀ v, slot = some v → Bare v) :
    Bare (place [] value slot) := by
  match slot with
  | none =>
      cases value <;> simp_all [place, Value.isLeaf, Bare]
  | some (.flag) =>
      have hFlag : Value.isLeaf .flag = true := rfl
      simp [place, Value.push, Bare, hFlag, hValue]
  | some (.text t) =>
      have hText : Value.isLeaf (.text t) = true := rfl
      simp [place, Value.push, Bare, hText, hValue]
  | some (.list _) =>
      exact absurd (hSlot _ rfl) (by simp [Bare])
  | some (.map _) =>
      exact absurd (hSlot _ rfl) (by simp [Bare])
  | some (.repeated items) =>
      have hItems : ∀ v ∈ items, v.isLeaf = true := by
        simpa [Bare] using hSlot _ rfl
      simp only [place, Value.push, Bare]
      intro v hMem
      rcases List.mem_append.mp hMem with hMem | hMem
      · exact hItems v hMem
      · rw [List.mem_singleton.mp hMem]
        exact hValue

/- A pair with a key and a leaf keeps the invariant. -/
theorem params_insertPair
    {params : Dict Value}
    (hParams : Params params)
    {pair : Pair}
    (hKey : pair.key ≠ [])
    (hValue : pair.value.isLeaf = true) :
    Params (insertPair params pair) := by
  rcases Key.split_root hKey with
    ⟨root, segments, hSplit, hNonempty, hWhole, hClosed, hBare⟩
  simp only [insertPair, hSplit, insertNested]
  refine
    { distinct := Dict.nodup_keys_alter hParams.distinct
      roots := ?_ }
  intro entry hMem
  rcases Dict.mem_alter hMem with hOld | ⟨hName, hNew⟩
  · exact hParams.roots entry hOld
  · -- what the slot held before is described by the invariant
    have hPlaced : ∃ slot,
        entry.2 = place segments pair.value slot ∧
          ∀ v, slot = some v → Root root v := by
      rcases hNew with hNone | ⟨v, hOld, hSome⟩
      · exact ⟨none, hNone, by simp⟩
      · refine ⟨some v, hSome, ?_⟩
        intro w hEq
        rw [← Option.some.inj hEq]
        exact hParams.roots (root, v) hOld
    rcases hPlaced with ⟨slot, hResult, hBefore⟩
    rw [hName, hResult]
    exact
      { nonempty := hNonempty
        whole := hWhole
        slot := slot_place hValue segments hClosed slot
          fun v hEq => (hBefore v hEq).slot
        bare := fun hOpen => by
          rw [hBare hOpen]
          exact bare_place_nil hValue fun v hEq =>
            (hBefore v hEq).bare hOpen }

/- Every pair of a query string has a key and a leaf. -/
theorem leaf_of_ofText?
    {piece : Text}
    {pair : Pair}
    (hPair : Pair.ofText? piece = some pair) :
    pair.key ≠ [] ∧ pair.value.isLeaf = true := by
  simp only [Pair.ofText?, Option.ite_none_left_eq_some,
    Option.some.injEq] at hPair
  rcases hPair with ⟨hKey, rfl⟩
  refine ⟨by simpa using hKey, ?_⟩
  split <;> rfl

/- Reading pairs one after another keeps the invariant. -/
theorem params_foldl
    {read : List Pair}
    (hRead : ∀ pair ∈ read,
      pair.key ≠ [] ∧ pair.value.isLeaf = true)
    {params : Dict Value}
    (hParams : Params params) :
    Params (read.foldl insertPair params) := by
  induction read generalizing params with
  | nil => exact hParams
  | cons pair rest ih =>
      rcases hRead pair (by simp) with ⟨hKey, hValue⟩
      exact ih
        (fun p hMem => hRead p (List.mem_cons_of_mem _ hMem))
        (params_insertPair hParams hKey hValue)

/- A query string gives what the invariant describes. -/
theorem params_parse
    (input : Text) :
    Params (parse input).params := by
  apply params_foldl
  · intro pair hMem
    rcases List.mem_filterMap.mp hMem with ⟨piece, -, hPair⟩
    exact leaf_of_ofText? hPair
  · exact
      { distinct := by simp [Dict.keys]
        roots := by simp }

/- A plain key with a flag or a text. -/
theorem root_of_isLeaf
    {key : Text}
    {value : Value}
    (hKey : key ≠ [])
    (hWhole :
      Key.split key = { root := key, segments := [] })
    (hValue : value.isLeaf = true) :
    Root key value where
  nonempty := hKey
  whole := hWhole
  slot := slot_of_isLeaf hValue
  bare := by
    intro _
    cases value with
    | flag => trivial
    | text _ => trivial
    | list _ => exact absurd hValue (by simp [Value.isLeaf])
    | repeated _ =>
        exact absurd hValue (by simp [Value.isLeaf])
    | map _ => exact absurd hValue (by simp [Value.isLeaf])

/- Writing a parameter keeps the invariant. -/
theorem params_insert
    {params : Dict Value}
    {key : Text}
    {value : Value}
    (hParams : Params params)
    (hRoot : Root key value) :
    Params (params.insert key value) where
  distinct := Dict.nodup_keys_alter hParams.distinct
  roots := by
    intro entry hMem
    rcases Dict.mem_alter hMem with hOld | ⟨hName, hNew⟩
    · exact hParams.roots entry hOld
    · have hValue : entry.2 = value := by
        rcases hNew with hNone | ⟨_, _, hSome⟩
        · exact hNone
        · exact hSome
      rw [hName, hValue]
      exact hRoot

theorem params_merge
    {params other : Dict Value}
    (hParams : Params params)
    (hOther : ∀ entry ∈ other, Root entry.1 entry.2) :
    Params (params.merge other) := by
  unfold Dict.merge
  induction other generalizing params with
  | nil => exact hParams
  | cons entry rest ih =>
      refine ih ?_ fun e hMem =>
        hOther e (List.mem_cons_of_mem _ hMem)
      exact params_insert hParams
        (hOther entry (List.mem_cons_self ..))

end Image

end Query

end ComponentLoader
