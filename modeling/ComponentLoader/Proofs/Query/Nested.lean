import Mathlib.Tactic
import ComponentLoader.Proofs.Query.Settled

/-
  Queries of nested lists and maps that are read back as
  they were written.  These are the ones in which brackets
  lead to every leaf.

  Main declarations:
    * `Value.Addressable`
    * `Value.settled_eq_iff`
    * `parse_render_of_regular`
-/

------------------------------------------------------------
-- Values That Are Read Back As They Are
------------------------------------------------------------

namespace ComponentLoader

namespace Query

namespace Value

mutual

/-
  Whether brackets lead to every leaf: an item of a list
  has a single leaf, or it is a map at a position that can
  be addressed.
-/
def Addressable : Value → Prop
  | flag => True
  | text _ => True
  | list items => ItemsAddressable 0 items
  | repeated _ => True
  | map entries => EntriesAddressable entries
termination_by structural v => v

def ItemsAddressable
    (i : Nat) : List Value → Prop
  | [] => True
  | item :: rest =>
      ItemAddressable i item ∧ ItemsAddressable (i + 1) rest
termination_by structural items => items

def ItemAddressable
    (i : Nat) : Value → Prop
  | flag => True
  | text _ => True
  | list items => (leaves (list items)).length = 1
  | repeated _ => True
  | map entries =>
      (leaves (map entries)).length = 1 ∨
        (i < UInt64.size ∧ EntriesAddressable entries)
termination_by structural item => item

def EntriesAddressable :
    List (Text × Value) → Prop
  | [] => True
  | (_, item) :: rest =>
      Addressable item ∧ EntriesAddressable rest
termination_by structural entries => entries

end

theorem entriesAddressable_iff
    (entries : Dict Value) :
    EntriesAddressable entries ↔
      ∀ entry ∈ entries, Addressable entry.2 := by
  induction entries with
  | nil => simp [EntriesAddressable]
  | cons entry rest ih =>
      rcases entry with ⟨key, item⟩
      simp [EntriesAddressable, ih]

/-
  If there is one leaf in two lists, and the first is not
  empty, then the second is.
-/
theorem eq_singleton_of_append
    {first second : List Leaf}
    {l : Leaf}
    (hFirst : first ≠ [])
    (hAppend : first ++ second = [l]) :
    first = [l] ∧ second = [] := by
  rcases List.append_eq_singleton_iff.mp hAppend with
    ⟨hNil, -⟩ | hSplit
  · exact absurd hNil hFirst
  · exact hSplit

mutual

/- A regular value with one leaf is what the leaf builds. -/
theorem built_of_leaves_eq :
    (v : Value) → Regular v →
      ∀ l, leaves v = [l] → l.built = v
  | .flag, _ => by
      rintro l hLeaves
      rw [leaves, List.singleton_inj] at hLeaves
      rw [← hLeaves]
      rfl
  | .text t, _ => by
      rintro l hLeaves
      rw [leaves, List.singleton_inj] at hLeaves
      rw [← hLeaves]
      rfl
  | .list items, hRegular => by
      intro l hLeaves
      simp only [Regular] at hRegular
      rcases hRegular with ⟨hSome, hItems⟩
      have hBuilt :=
        built_of_itemLeaves_eq items hItems hSome
      rw [leaves] at hLeaves
      split at hLeaves
      · rcases hBuilt.2 0 l hLeaves with
          ⟨inner, rfl, hItem⟩
        simp only [Leaf.built, Leaf.under, nest,
          Key.isIndex_ofNat, if_true, ← hItem]
      · rw [List.map_eq_singleton_iff] at hLeaves
        rcases hLeaves with ⟨inner, hInner, rfl⟩
        simp only [Leaf.built, Leaf.under, nest,
          Key.isIndex_nil, if_true,
          ← hBuilt.1 inner hInner]
  | .repeated items, hRegular => by
      simp [Regular] at hRegular
  | .map entries, hRegular => by
      intro l hLeaves
      simp only [Regular] at hRegular
      exact built_of_entryLeaves_eq entries hRegular.2.2
        hRegular.1 l hLeaves
termination_by structural v => v

theorem built_of_itemLeaves_eq :
    (items : List Value) → AllRegular items →
      items ≠ [] →
        (∀ l, plainLeaves items = [l] →
          [l.built] = items) ∧
        ∀ i l, indexedLeaves i items = [l] →
          ∃ inner : Leaf,
            l = inner.under (Text.ofNat i) ∧
              [inner.built] = items
  | [], _, hSome => absurd rfl hSome
  | item :: rest, hRegular, _ => by
      simp only [AllRegular] at hRegular
      have hItem := built_of_leaves_eq item hRegular.1
      have hSome := leaves_ne_nil_of_regular item hRegular.1
      have hRest := itemLeaves_ne_nil rest hRegular.2
      constructor
      · intro l hLeaves
        rcases eq_singleton_of_append hSome hLeaves with
          ⟨hFirst, hSecond⟩
        have hNil : rest = [] := by
          by_contra hMore
          exact (hRest hMore).1 hSecond
        rw [hItem l hFirst, hNil]
      · intro i l hLeaves
        rcases eq_singleton_of_append (by simpa using hSome)
            hLeaves with
          ⟨hFirst, hSecond⟩
        have hNil : rest = [] := by
          by_contra hMore
          exact (hRest hMore).2 (i + 1) hSecond
        rw [List.map_eq_singleton_iff] at hFirst
        rcases hFirst with ⟨inner, hInner, rfl⟩
        exact ⟨inner, rfl, by
          rw [hItem inner hInner, hNil]⟩
termination_by structural items => items

theorem built_of_entryLeaves_eq :
    (entries : List (Text × Value)) →
      RegularEntries entries → entries ≠ [] →
        ∀ l, entryLeaves entries = [l] →
          l.built = map entries
  | [], _, hSome => absurd rfl hSome
  | (key, item) :: rest, hRegular, _ => by
      intro l hLeaves
      simp only [RegularEntries] at hRegular
      rcases hRegular with ⟨hKey, hRegular, hRest⟩
      have hItem := built_of_leaves_eq item hRegular
      have hSome := leaves_ne_nil_of_regular item hRegular
      rcases eq_singleton_of_append (by simpa using hSome)
          hLeaves with
        ⟨hFirst, hSecond⟩
      have hNil : rest = [] := by
        by_contra hMore
        exact entryLeaves_ne_nil rest hRest hMore
          hSecond
      rw [List.map_eq_singleton_iff] at hFirst
      rcases hFirst with ⟨inner, hInner, rfl⟩
      simp only [Leaf.built, Leaf.under, nest,
        hKey.isIndex, Bool.false_eq_true, if_false, hNil,
        ← hItem inner hInner]
termination_by structural entries => entries

end

/- A leaf builds only values of which it is the only leaf. -/
theorem length_leaves_built
    {v : Value}
    (hRegular : Regular v)
    {l : Leaf}
    (hLeaf : l ∈ leaves v) :
    (leaves l.built).length = 1 := by
  rcases leaves_nest (closed_of_regular v hRegular l hLeaf)
      (isLeaf_of_mem_leaves v l hLeaf) with
    ⟨written, hLeaves, -, -⟩
  rw [Leaf.built, hLeaves, List.length_singleton]

/- A regular value with a single leaf is read back. -/
theorem settled_of_length_eq_one
    {v : Value}
    (hRegular : Regular v)
    (hSingle : (leaves v).length = 1) :
    settled v = v := by
  rcases List.length_eq_one_iff.mp hSingle with
    ⟨l, hLeaves⟩
  have hBuilds := builds_settled v hRegular
  rw [Builds, hLeaves, writeAll_cons, writeAll_nil,
    Leaf.write, place_none, Option.some.injEq] at hBuilds
  rw [← hBuilds]
  exact built_of_leaves_eq v hRegular l hLeaves

/- Leaves that build a value in a list are a single one. -/
theorem map_built_eq_iff
    {v : Value}
    (hRegular : Regular v) :
    (leaves v).map Leaf.built = [v] ↔
      (leaves v).length = 1 := by
  constructor
  · intro hBuilt
    simpa using congrArg List.length hBuilt
  · intro hSingle
    rcases List.length_eq_one_iff.mp hSingle with
      ⟨l, hLeaves⟩
    rw [hLeaves, List.map_singleton,
      built_of_leaves_eq v hRegular l hLeaves]

/- The last leaf builds a value only on its own. -/
theorem last_built_eq_iff
    {v : Value}
    (hRegular : Regular v) :
    ((leaves v).getLast?.map Leaf.built).toList = [v] ↔
      (leaves v).length = 1 := by
  have hSome := leaves_ne_nil_of_regular v hRegular
  constructor
  · intro hBuilt
    rw [List.getLast?_eq_some_getLast hSome,
      Option.map_some, Option.toList_some,
      List.singleton_inj] at hBuilt
    have hLength := length_leaves_built hRegular
      (List.getLast_mem hSome)
    rwa [hBuilt] at hLength
  · intro hSingle
    rcases List.length_eq_one_iff.mp hSingle with
      ⟨l, hLeaves⟩
    rw [hLeaves, List.getLast?_singleton, Option.map_some,
      Option.toList_some,
      built_of_leaves_eq v hRegular l hLeaves]

/- Every item is read back as some item. -/
theorem settledItem_ne_nil
    {item : Value}
    (hRegular : Regular item)
    (i : Nat) :
    settledItem i item ≠ [] := by
  have hSome := leaves_ne_nil_of_regular item hRegular
  by_cases hFits : i < UInt64.size
  · have hLength := length_settledItem hFits hRegular
    intro hNil
    rw [hNil] at hLength
    exact absurd hLength (by simp)
  · cases item with
    | list items => simpa [settledItem, hFits] using hSome
    | map entries => simpa [settledItem, hFits] using hSome
    | flag => simp [settledItem]
    | text t => simp [settledItem]
    | repeated items => simp [settledItem]

theorem length_le_settledItems
    {items : List Value}
    (hRegular : AllRegular items)
    (i : Nat) :
    items.length ≤ (settledItems i items).length := by
  induction items generalizing i with
  | nil => simp
  | cons item rest ih =>
      simp only [AllRegular] at hRegular
      have hItem := List.length_pos_of_ne_nil
        (settledItem_ne_nil hRegular.1 i)
      have hRest := ih hRegular.2 (i + 1)
      simp only [settledItems, List.length_append,
        List.length_cons]
      omega

/- Items come back if each of them does. -/
theorem settledItems_cons_eq_iff
    {item : Value}
    {rest : List Value}
    (hRegular : AllRegular (item :: rest))
    (i : Nat) :
    settledItems i (item :: rest) = item :: rest ↔
      settledItem i item = [item] ∧
        settledItems (i + 1) rest = rest := by
  simp only [AllRegular] at hRegular
  have hItem := List.length_pos_of_ne_nil
    (settledItem_ne_nil hRegular.1 i)
  have hRest := length_le_settledItems hRegular.2 (i + 1)
  rw [settledItems]
  constructor
  · intro hEq
    have hLength := congrArg List.length hEq
    simp only [List.length_append, List.length_cons]
      at hLength
    have hOne : (settledItem i item).length =
        [item].length := by
      rw [List.length_singleton]
      omega
    exact List.append_inj
      (hEq.trans List.singleton_append.symm) hOne
  · rintro ⟨hFirst, hMore⟩
    rw [hFirst, hMore]
    rfl

mutual

/- A value comes back exactly if all leaves are led to. -/
theorem settled_eq_iff :
    (v : Value) → Regular v →
      (settled v = v ↔ Addressable v)
  | .flag, _ => by simp [settled, Addressable]
  | .text t, _ => by simp [settled, Addressable]
  | .list items, hRegular => by
      simp only [Regular] at hRegular
      rw [settled, Addressable, list.injEq]
      exact settledItems_eq_iff 0 items hRegular.2
  | .repeated items, hRegular => by
      simp [Regular] at hRegular
  | .map entries, hRegular => by
      simp only [Regular] at hRegular
      rw [settled, Addressable, map.injEq]
      exact settledEntries_eq_iff entries hRegular.2.2
termination_by structural v => v

theorem settledItems_eq_iff
    (i : Nat) :
    (items : List Value) → AllRegular items →
      (settledItems i items = items ↔
        ItemsAddressable i items)
  | [], _ => by simp [settledItems, ItemsAddressable]
  | item :: rest, hRegular => by
      rw [settledItems_cons_eq_iff hRegular,
        ItemsAddressable]
      simp only [AllRegular] at hRegular
      rw [settledItem_eq_iff i item hRegular.1,
        settledItems_eq_iff (i + 1) rest hRegular.2]
termination_by structural items => items

theorem settledItem_eq_iff
    (i : Nat) :
    (item : Value) → Regular item →
      (settledItem i item = [item] ↔ ItemAddressable i item)
  | .flag, _ => by simp [settledItem, ItemAddressable]
  | .text t, _ => by simp [settledItem, ItemAddressable]
  | .list items, hRegular => by
      rw [settledItem, ItemAddressable]
      split
      · exact last_built_eq_iff hRegular
      · exact map_built_eq_iff hRegular
  | .repeated items, hRegular => by
      simp [Regular] at hRegular
  | .map entries, hRegular => by
      have hSingle := settled_of_length_eq_one hRegular
      have hEntries := settledEntries_eq_iff entries
      rw [settledItem, ItemAddressable]
      split
      · rename_i hFits
        rw [settled, map.injEq] at hSingle
        simp only [Regular] at hRegular
        rw [List.singleton_inj, map.injEq,
          ← hEntries hRegular.2.2]
        simp only [hFits, true_and]
        exact ⟨Or.inr, fun h => h.elim hSingle id⟩
      · rename_i hFits
        simp only [hFits, false_and, or_false]
        exact map_built_eq_iff hRegular
termination_by structural item => item

theorem settledEntries_eq_iff :
    (entries : List (Text × Value)) →
      RegularEntries entries →
        (settledEntries entries = entries ↔
          EntriesAddressable entries)
  | [], _ => by simp [settledEntries, EntriesAddressable]
  | (key, item) :: rest, hRegular => by
      simp only [RegularEntries] at hRegular
      rw [settledEntries, EntriesAddressable,
        List.cons.injEq, Prod.mk.injEq,
        settled_eq_iff item hRegular.2.1,
        settledEntries_eq_iff rest hRegular.2.2]
      simp only [true_and]
termination_by structural entries => entries

end

end Value

------------------------------------------------------------
-- Reading Queries Back
------------------------------------------------------------

/- Whether brackets lead to every leaf of a query. -/
def Addressable
    (q : Query) : Prop :=
  ∀ entry ∈ q.params, entry.2.Addressable

/- Regular values are read back as what they settle to. -/
theorem readsAs_settledEntries
    {params : Dict Value}
    (hRegular : ∀ entry ∈ params,
      PlainKey entry.1 ∧ entry.2.Regular) :
    List.Forall₂ ReadsAs params
      (Value.settledEntries params) := by
  induction params with
  | nil => exact .nil
  | cons entry rest ih =>
      rcases entry with ⟨key, v⟩
      rw [List.forall_mem_cons] at hRegular
      rcases hRegular with ⟨⟨hKey, hValue⟩, hRest⟩
      refine .cons ?_ (ih hRest)
      exact
        { key := rfl
          nonempty := hKey.nonempty
          builds := Value.builds_settled v hValue
          split := fun l hLeaf =>
            Key.split_append_brackets hKey.nonempty
              hKey.unopened
              (Value.closed_of_regular v hValue l hLeaf) }

/-
  What a regular query is read back as.  It is the query
  itself exactly if no list in a list has several leaves,
  and no map stands in a list too far to be addressed.
-/
theorem parse_render_of_regular
    {q : Query}
    (hRegular : q.Regular) :
    parse q.render = q.settled ∧
      (parse q.render = q ↔ q.Addressable) := by
  have hParse : parse q.render = q.settled :=
    parse_render_of_readsAs
      (readsAs_settledEntries hRegular.entries)
      hRegular.distinct
  refine ⟨hParse, ?_⟩
  have hEntries := Value.settledEntries_eq_iff q.params
    ((Value.regularEntries_iff q.params).mpr
      hRegular.entries)
  rw [hParse, Addressable,
    ← Value.entriesAddressable_iff, ← hEntries]
  rcases q with ⟨params⟩
  simp only [settled, Query.mk.injEq]

/- A list of a map and a list, and a flag. -/
def Sample.mixed : Query :=
  { params :=
      [("a".toList,
          .list
            [.map
                [("x".toList, .text []),
                  ("y".toList,
                    .list [.flag, .text "&[=".toList])],
              .list [.text "4".toList, .text "5".toList]]),
        ("b".toList, .flag)] }

/- The map comes back, and the last item of the list. -/
theorem parse_render_of_regular_sample :
    Sample.mixed.Regular ∧
      parse Sample.mixed.render =
        { params :=
            [("a".toList,
                .list
                  [.map
                      [("x".toList, .text []),
                        ("y".toList,
                          .list
                            [.flag, .text "&[=".toList])],
                    .list [.text "5".toList]]),
              ("b".toList, .flag)] } ∧
      parse Sample.mixed.render ≠ Sample.mixed := by
  have hRegular : Sample.mixed.Regular :=
    { distinct := by decide
      entries := by
        have hKeys :
            (PlainKey "a".toList ∧ PlainKey "x".toList ∧
                PlainKey "y".toList) ∧
              PlainKey "b".toList := by
          decide
        simpa [Sample.mixed, Value.Regular,
          Value.AllRegular, Value.RegularEntries, Dict.keys]
          using hKeys }
  have hSettled := parse_render_of_regular hRegular
  refine ⟨hRegular, hSettled.1, ?_⟩
  rw [Ne, hSettled.2]
  simp [Addressable, Sample.mixed, Value.Addressable,
    Value.ItemsAddressable, Value.ItemAddressable,
    Value.leaves, Value.plainLeaves, Value.isNested]

end Query

end ComponentLoader
