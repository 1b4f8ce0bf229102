import Mathlib.Tactic
import ComponentLoader.Proofs.Query.RoundTrip

/-
  What nested lists and maps are read back as.

  Brackets can lead into a map in a list, but not into a
  list in a list: a second leaf that is written for such a
  list takes the place of the first.  So a list in a list
  comes back with its last leaf alone.

  Main declarations:
    * `PlainKey`
    * `Value.Regular`
    * `Value.settled`
    * `writeAll_over_last`
    * `Value.builds_settled`
-/

------------------------------------------------------------
-- Regular Values
------------------------------------------------------------

namespace ComponentLoader

namespace Query

/-
  A key that is neither split nor taken for a position in a
  list.
-/
structure PlainKey
    (key : Text) : Prop where
  nonempty : key ≠ []
  unopened : '[' ∉ key
  unclosed : ']' ∉ key
  noIndex : ∃ c ∈ key, c.isDigit = false

theorem plainKey_iff
    {key : Text} :
    PlainKey key ↔
      key ≠ [] ∧ '[' ∉ key ∧ ']' ∉ key ∧
        (key.any fun c => !c.isDigit) = true := by
  simp only [List.any_eq_true, Bool.not_eq_true']
  constructor
  · intro hKey
    exact ⟨hKey.nonempty, hKey.unopened, hKey.unclosed,
      hKey.noIndex⟩
  · rintro ⟨hSome, hOpen, hClose, hIndex⟩
    exact ⟨hSome, hOpen, hClose, hIndex⟩

instance
    (key : Text) : Decidable (PlainKey key) :=
  decidable_of_iff' _ plainKey_iff

theorem PlainKey.isIndex
    {key : Text}
    (hKey : PlainKey key) :
    Key.isIndex key = false := by
  rcases hKey.noIndex with ⟨c, hMem, hChar⟩
  rw [Key.isIndex, List.all_eq_false]
  exact ⟨c, hMem, by simp [hChar]⟩

namespace Value

mutual

/-
  A value of flags, texts, lists and maps, without empty
  ones, in which all keys are plain.
-/
def Regular : Value → Prop
  | flag => True
  | text _ => True
  | list items => items ≠ [] ∧ AllRegular items
  | repeated _ => False
  | map entries =>
      entries ≠ [] ∧ (Dict.keys entries).Nodup ∧
        RegularEntries entries
termination_by structural v => v

def AllRegular : List Value → Prop
  | [] => True
  | item :: rest => Regular item ∧ AllRegular rest
termination_by structural items => items

def RegularEntries : List (Text × Value) → Prop
  | [] => True
  | (key, item) :: rest =>
      PlainKey key ∧ Regular item ∧ RegularEntries rest
termination_by structural entries => entries

end

theorem regularEntries_iff
    (entries : Dict Value) :
    RegularEntries entries ↔
      ∀ entry ∈ entries,
        PlainKey entry.1 ∧ Regular entry.2 := by
  induction entries with
  | nil => simp [RegularEntries]
  | cons entry rest ih =>
      rcases entry with ⟨key, item⟩
      simp [RegularEntries, ih, and_assoc]

/- The keys of a regular map may stand in any map. -/
theorem mapKeys_of_regular
    {entries : Dict Value}
    (hRegular : Regular (map entries))
    (free : Bool) :
    Image.MapKeys free (Dict.keys entries) := by
  simp only [Regular, regularEntries_iff] at hRegular
  rcases hRegular with ⟨hSome, hDistinct, hEntries⟩
  have hKeys : ∀ key ∈ Dict.keys entries, PlainKey key := by
    intro key hMem
    rcases List.mem_map.mp hMem with ⟨entry, hEntry, rfl⟩
    exact (hEntries entry hEntry).1
  exact
    { distinct := hDistinct
      closed := fun key hMem => (hKeys key hMem).unclosed
      first := by
        cases entries with
        | nil => exact absurd rfl hSome
        | cons entry rest =>
            exact ⟨entry.1, rfl,
              (hKeys entry.1 (by simp [Dict.keys])).isIndex⟩
      plain := fun _ key hMem => (hKeys key hMem).isIndex }

end Value

/- A query of regular values under plain keys. -/
structure Regular
    (q : Query) : Prop where
  distinct : (Dict.keys q.params).Nodup
  entries : ∀ entry ∈ q.params,
    PlainKey entry.1 ∧ entry.2.Regular

------------------------------------------------------------
-- Leaves Of Regular Values
------------------------------------------------------------

namespace Value

mutual

/- A regular value has a leaf. -/
theorem leaves_ne_nil_of_regular :
    (v : Value) → Regular v → leaves v ≠ []
  | .flag, _ => by simp [leaves]
  | .text _, _ => by simp [leaves]
  | .list items, hRegular => by
      simp only [Regular] at hRegular
      have hItems :=
        itemLeaves_ne_nil items hRegular.2 hRegular.1
      rw [leaves]
      split
      · exact hItems.2 0
      · simpa using hItems.1
  | .repeated _, hRegular => by simp [Regular] at hRegular
  | .map entries, hRegular => by
      simp only [Regular] at hRegular
      exact entryLeaves_ne_nil entries
        hRegular.2.2 hRegular.1
termination_by structural v => v

theorem itemLeaves_ne_nil :
    (items : List Value) → AllRegular items →
      items ≠ [] →
        plainLeaves items ≠ [] ∧
          ∀ i, indexedLeaves i items ≠ []
  | [], _, hSome => absurd rfl hSome
  | item :: rest, hRegular, _ => by
      simp only [AllRegular] at hRegular
      have hItem :=
        leaves_ne_nil_of_regular item hRegular.1
      simp [plainLeaves, indexedLeaves, hItem]
termination_by structural items => items

theorem entryLeaves_ne_nil :
    (entries : List (Text × Value)) →
      RegularEntries entries → entries ≠ [] →
        entryLeaves entries ≠ []
  | [], _, hSome => absurd rfl hSome
  | (key, item) :: rest, hRegular, _ => by
      simp only [RegularEntries] at hRegular
      have hItem :=
        leaves_ne_nil_of_regular item hRegular.2.1
      simp [entryLeaves, hItem]
termination_by structural entries => entries

end

mutual

/- No segment of a leaf of a regular value has a bracket. -/
theorem closed_of_regular :
    (v : Value) → Regular v →
      ∀ l ∈ leaves v, Image.Closed l
  | .flag, _ => by simp [leaves, Image.Closed]
  | .text _, _ => by simp [leaves, Image.Closed]
  | .list items, hRegular => by
      simp only [Regular] at hRegular
      have hItems := closed_of_allRegular items hRegular.2
      rw [leaves]
      split
      · exact hItems.2 0
      · exact Image.closed_under (by simp) hItems.1
  | .repeated _, hRegular => by simp [Regular] at hRegular
  | .map entries, hRegular => by
      simp only [Regular] at hRegular
      exact closed_of_regularEntries entries hRegular.2.2
termination_by structural v => v

theorem closed_of_allRegular :
    (items : List Value) → AllRegular items →
      (∀ l ∈ plainLeaves items, Image.Closed l) ∧
        ∀ i, ∀ l ∈ indexedLeaves i items, Image.Closed l
  | [], _ => by simp [plainLeaves, indexedLeaves]
  | item :: rest, hRegular => by
      simp only [AllRegular] at hRegular
      have hItem := closed_of_regular item hRegular.1
      have hRest := closed_of_allRegular rest hRegular.2
      constructor
      · rw [plainLeaves, List.forall_mem_append]
        exact ⟨hItem, hRest.1⟩
      · intro i
        rw [indexedLeaves, List.forall_mem_append]
        exact ⟨Image.closed_under (Key.not_mem_of_isIndex
          (Key.isIndex_ofNat i)) hItem, hRest.2 (i + 1)⟩
termination_by structural items => items

theorem closed_of_regularEntries :
    (entries : List (Text × Value)) →
      RegularEntries entries →
        ∀ l ∈ entryLeaves entries, Image.Closed l
  | [], _ => by simp [entryLeaves]
  | (key, item) :: rest, hRegular => by
      simp only [RegularEntries] at hRegular
      rcases hRegular with ⟨hKey, hItem, hRest⟩
      rw [entryLeaves, List.forall_mem_append]
      exact ⟨Image.closed_under hKey.unclosed
          (closed_of_regular item hItem),
        closed_of_regularEntries rest hRest⟩
termination_by structural entries => entries

end

/- The leaves of a list start with a position in it. -/
theorem index_of_mem_leaves_list
    {items : List Value}
    {l : Leaf}
    (hLeaf : l ∈ leaves (list items)) :
    ∃ first rest,
      l.segments = first :: rest ∧
        Key.isIndex first = true := by
  have hIndexed : ∀ (more : List Value) (i : Nat),
      ∀ l ∈ indexedLeaves i more, ∃ first rest,
        l.segments = first :: rest ∧
          Key.isIndex first = true := by
    intro more
    induction more with
    | nil => simp [indexedLeaves]
    | cons item rest ih =>
        intro i
        rw [indexedLeaves, List.forall_mem_append,
          List.forall_mem_map]
        exact ⟨fun inner _ =>
          ⟨Text.ofNat i, inner.segments, rfl,
            Key.isIndex_ofNat i⟩, ih (i + 1)⟩
  rw [leaves] at hLeaf
  split at hLeaf
  · exact hIndexed items 0 l hLeaf
  · rcases List.mem_map.mp hLeaf with ⟨inner, -, rfl⟩
    exact ⟨[], inner.segments, rfl, rfl⟩

end Value

------------------------------------------------------------
-- What Values Are Read Back As
------------------------------------------------------------

/- The value that a leaf builds on its own. -/
def Leaf.built
    (l : Leaf) : Value :=
  nest l.segments l.value

namespace Value

mutual

/- What a value is read back as. -/
def settled : Value → Value
  | flag => flag
  | text t => text t
  | list items => list (settledItems 0 items)
  | repeated items => repeated items
  | map entries => map (settledEntries entries)
termination_by structural v => v

/- What items from a position on are read back as. -/
def settledItems
    (i : Nat) : List Value → List Value
  | [] => []
  | item :: rest =>
      settledItem i item ++ settledItems (i + 1) rest
termination_by structural items => items

/-
  What an item at a position is read back as: a list as its
  last leaf, a map as itself.  Beyond the positions that
  can be addressed, each leaf becomes an item.
-/
def settledItem
    (i : Nat) : Value → List Value
  | list items =>
      if i < UInt64.size then
        ((leaves (list items)).getLast?.map
          Leaf.built).toList
      else
        (leaves (list items)).map Leaf.built
  | map entries =>
      if i < UInt64.size then
        [map (settledEntries entries)]
      else
        (leaves (map entries)).map Leaf.built
  | flag => [flag]
  | text t => [text t]
  | repeated items => [repeated items]
termination_by structural item => item

def settledEntries :
    List (Text × Value) → List (Text × Value)
  | [] => []
  | (key, item) :: rest =>
      (key, settled item) :: settledEntries rest
termination_by structural entries => entries

end

end Value

/- What a query is read back as. -/
def settled
    (q : Query) : Query :=
  { params := Value.settledEntries q.params }

------------------------------------------------------------
-- Writing Into Lists
------------------------------------------------------------

/- A leaf under an index that names no item is added. -/
theorem write_under_end
    {i : Nat}
    {slot : Option Value}
    (hEnd : i < UInt64.size → (slotItems slot).length = i)
    (l : Leaf) :
    (l.under (Text.ofNat i)).write slot =
      .list (slotItems slot ++ [l.built]) := by
  by_cases hFits : i < UInt64.size
  · rw [← hEnd hFits]
    exact write_under_index l slot
  · rcases l with ⟨segments, value⟩
    cases segments with
    | nil => simp [Leaf.write, Leaf.under, place, Leaf.built,
        nest]
    | cons next rest =>
        simp only [Leaf.write, Leaf.under, place,
          Key.isIndex_ofNat, if_true, Key.index?_ofNat,
          if_neg hFits, Leaf.built]

/- Leaves under a position too large become items. -/
theorem writeAll_beyond
    {i : Nat}
    (hBeyond : ¬ i < UInt64.size)
    {leaves : List Leaf}
    (hSome : leaves ≠ [])
    (slot : Option Value) :
    writeAll (leaves.map (Leaf.under (Text.ofNat i))) slot =
      some (.list (slotItems slot ++
        leaves.map Leaf.built)) := by
  induction leaves generalizing slot with
  | nil => exact absurd rfl hSome
  | cons l rest ih =>
      rw [List.map_cons, writeAll_cons,
        write_under_end (fun hFits => absurd hFits hBeyond)]
      cases rest with
      | nil => rfl
      | cons next more =>
          rw [ih (by simp)]
          simp [slotItems]

/- A leaf of a list takes the place of the last item. -/
theorem write_over_last
    {items : List Value}
    (hFits : items.length < UInt64.size)
    {old : Value}
    (hOld : ∀ inner, old ≠ .map inner)
    {l : Leaf}
    {first : Text}
    {rest : List Text}
    (hSegments : l.segments = first :: rest) :
    (l.under (Text.ofNat items.length)).write
        (some (.list (items ++ [old]))) =
      .list (items ++ [l.built]) := by
  rcases l with ⟨segments, value⟩
  simp only at hSegments
  subst hSegments
  have hGet : (items ++ [old])[items.length]? =
      some old := by simp
  have hSet : (items ++ [old]).set items.length
        (nest (first :: rest) value) =
      items ++ [nest (first :: rest) value] := by
    rw [List.set_append_right _ _ (Nat.le_refl _)]
    simp
  simp only [Leaf.write, Leaf.under, place,
    Key.isIndex_ofNat, if_true, Key.index?_ofNat,
    if_pos hFits, slotItems, Leaf.built]
  rw [hGet]
  cases old with
  | map inner => exact absurd rfl (hOld inner)
  | flag => simp only [hSet]
  | text t => simp only [hSet]
  | list is => simp only [hSet]
  | repeated is => simp only [hSet]

/- What a leaf of a list builds is a list. -/
theorem built_ne_map
    {l : Leaf}
    {first : Text}
    {rest : List Text}
    (hSegments : l.segments = first :: rest)
    (hIndex : Key.isIndex first = true)
    (inner : Dict Value) :
    l.built ≠ .map inner := by
  rw [Leaf.built, hSegments, nest, if_pos hIndex]
  simp

/- Of the leaves of a list only the last one stays. -/
theorem writeAll_over_last
    {items : List Value}
    (hFits : items.length < UInt64.size)
    {leaves : List Leaf}
    (hLeaves : ∀ l ∈ leaves, ∃ first rest,
      l.segments = first :: rest ∧
        Key.isIndex first = true)
    {old : Value}
    (hOld : ∀ inner, old ≠ .map inner) :
    writeAll
        (leaves.map (Leaf.under (Text.ofNat items.length)))
        (some (.list (items ++ [old]))) =
      some (.list (items ++
        [(leaves.getLast?.map Leaf.built).getD old])) := by
  induction leaves generalizing old with
  | nil => rfl
  | cons l rest ih =>
      rcases hLeaves l (by simp) with
        ⟨first, more, hSegments, hIndex⟩
      rw [List.map_cons, writeAll_cons,
        write_over_last hFits hOld hSegments,
        ih (fun l hMem => hLeaves l (by simp [hMem]))
          (built_ne_map hSegments hIndex),
        List.getLast?_cons, Option.map_some,
        Option.getD_some, Option.getD_map]

/- A list is added to a list as its last leaf. -/
theorem writeAll_list_item
    {slot : Option Value}
    (hFits : (slotItems slot).length < UInt64.size)
    {leaves : List Leaf}
    (hSome : leaves ≠ [])
    (hLeaves : ∀ l ∈ leaves, ∃ first rest,
      l.segments = first :: rest ∧
        Key.isIndex first = true) :
    writeAll
        (leaves.map (Leaf.under
          (Text.ofNat (slotItems slot).length))) slot =
      some (.list (slotItems slot ++
        (leaves.getLast?.map Leaf.built).toList)) := by
  cases leaves with
  | nil => exact absurd rfl hSome
  | cons l rest =>
      rcases hLeaves l (by simp) with
        ⟨first, more, hSegments, hIndex⟩
      rw [List.map_cons, writeAll_cons,
        write_under_end (fun _ => rfl),
        writeAll_over_last hFits
          (fun l hMem => hLeaves l (by simp [hMem]))
          (built_ne_map hSegments hIndex),
        List.getLast?_cons, Option.map_some,
        Option.getD_map, Option.toList_some]

------------------------------------------------------------
-- Leaves Build What Is Read Back
------------------------------------------------------------

namespace Value

/- Regular items without brackets are leaves. -/
theorem isLeaf_of_allRegular
    {items : List Value}
    (hRegular : AllRegular items)
    (hPlain : ¬ items.any isNested = true) :
    ∀ v ∈ items, isLeaf v = true := by
  induction items with
  | nil => simp
  | cons item rest ih =>
      simp only [AllRegular] at hRegular
      simp only [List.any_cons, Bool.or_eq_true, not_or]
        at hPlain
      rw [List.forall_mem_cons]
      refine ⟨?_, ih hRegular.2 hPlain.2⟩
      cases item <;> simp_all [Regular, isLeaf, isNested]

/- Leaves are read back as they are. -/
theorem settledItems_of_isLeaf
    {items : List Value}
    (hItems : ∀ v ∈ items, isLeaf v = true)
    (i : Nat) :
    settledItems i items = items := by
  induction items generalizing i with
  | nil => rfl
  | cons item rest ih =>
      rw [List.forall_mem_cons] at hItems
      rw [settledItems, ih hItems.2]
      cases item <;> simp_all [settledItem, isLeaf]

/- An item that can be addressed stays one item. -/
theorem length_settledItem
    {i : Nat}
    (hFits : i < UInt64.size)
    {item : Value}
    (hRegular : Regular item) :
    (settledItem i item).length = 1 := by
  cases item with
  | list items =>
      have hSome := leaves_ne_nil_of_regular _ hRegular
      rw [settledItem, if_pos hFits,
        List.getLast?_eq_some_getLast hSome]
      rfl
  | map entries => simp [settledItem, hFits]
  | flag => rfl
  | text t => rfl
  | repeated items => rfl

mutual

/- The leaves of a value build what it is read back as. -/
theorem builds_settled :
    (v : Value) → Regular v → Builds (leaves v) (settled v)
  | .flag, _ => rfl
  | .text _, _ => rfl
  | .list items, hRegular => by
      simp only [Regular] at hRegular
      rcases hRegular with ⟨hSome, hItems⟩
      by_cases hNested : items.any isNested = true
      · have hAll := writeAll_settledItems 0 items hItems
          none (fun _ => rfl)
        rw [if_neg hSome] at hAll
        rw [Builds, leaves, if_pos hNested, hAll]
        rfl
      · have hLeaves := isLeaf_of_allRegular hItems hNested
        rw [Builds, leaves, if_neg hNested, settled,
          settledItems_of_isLeaf hLeaves,
          plainLeaves_of_isLeaf hLeaves,
          writeAll_under_nil hSome]
        rfl
  | .repeated items, hRegular => by
      simp [Regular] at hRegular
  | .map entries, hRegular => by
      have hKeys := mapKeys_of_regular hRegular false
      simp only [Regular] at hRegular
      exact builds_map hKeys
        (builds_settledEntries entries hRegular.2.2)
termination_by structural v => v

/- The leaves of items are added to a list. -/
theorem writeAll_settledItems
    (i : Nat) :
    (items : List Value) → AllRegular items →
      ∀ slot, (i < UInt64.size →
          (slotItems slot).length = i) →
        writeAll (indexedLeaves i items) slot =
          if items = [] then slot
          else some (.list (slotItems slot ++
            settledItems i items))
  | [], _ => by
      intro slot _
      simp [indexedLeaves]
  | item :: rest, hRegular => by
      intro slot hEnd
      simp only [AllRegular] at hRegular
      have hFirst :=
        writeAll_settledItem i item hRegular.1 slot hEnd
      have hRest := writeAll_settledItems (i + 1) rest
        hRegular.2
        (some (.list (slotItems slot ++ settledItem i item)))
        (by
          intro hFits
          have hLength := hEnd (by omega)
          have hItem := length_settledItem
            (i := i) (by omega) hRegular.1
          simp [hLength, hItem])
      rw [indexedLeaves, writeAll_append, hFirst, hRest]
      cases rest with
      | nil => simp [settledItems]
      | cons next more => simp [settledItems]
termination_by structural items => items

/- The leaves of an item are added to a list. -/
theorem writeAll_settledItem
    (i : Nat) :
    (item : Value) → Regular item →
      ∀ slot, (i < UInt64.size →
          (slotItems slot).length = i) →
        writeAll ((leaves item).map
            (Leaf.under (Text.ofNat i))) slot =
          some (.list (slotItems slot ++ settledItem i item))
  | .flag, _ => by
      intro slot hEnd
      rw [leaves, List.map_singleton, writeAll_cons,
        write_under_end hEnd]
      rfl
  | .text t, _ => by
      intro slot hEnd
      rw [leaves, List.map_singleton, writeAll_cons,
        write_under_end hEnd]
      rfl
  | .list items, hRegular => by
      intro slot hEnd
      have hSome := leaves_ne_nil_of_regular _ hRegular
      by_cases hFits : i < UInt64.size
      · have hLength := hEnd hFits
        subst hLength
        rw [settledItem, if_pos hFits]
        exact writeAll_list_item hFits hSome
          fun _ hLeaf => index_of_mem_leaves_list hLeaf
      · rw [settledItem, if_neg hFits]
        exact writeAll_beyond hFits hSome slot
  | .repeated items, hRegular => by
      simp [Regular] at hRegular
  | .map entries, hRegular => by
      intro slot hEnd
      have hSome := leaves_ne_nil_of_regular _ hRegular
      have hKeys := mapKeys_of_regular hRegular true
      have hEntries := builds_settledEntries entries
      by_cases hFits : i < UInt64.size
      · have hLength := hEnd hFits
        subst hLength
        simp only [Regular] at hRegular
        rw [settledItem, if_pos hFits, leaves]
        exact writeAll_map_item hFits hKeys
          (hEntries hRegular.2.2)
      · rw [settledItem, if_neg hFits]
        exact writeAll_beyond hFits hSome slot
termination_by structural item => item

/- The leaves of every entry build its new value. -/
theorem builds_settledEntries :
    (entries : List (Text × Value)) →
      RegularEntries entries →
        BuildsAll entries (settledEntries entries)
  | [], _ => .nil
  | (key, item) :: rest, hRegular => by
      simp only [RegularEntries] at hRegular
      exact .cons ⟨rfl, builds_settled item hRegular.2.1⟩
        (builds_settledEntries rest hRegular.2.2)
termination_by structural entries => entries

end

end Value

end Query

end ComponentLoader
