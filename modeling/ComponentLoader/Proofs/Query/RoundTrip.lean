import ComponentLoader.Proofs.Query.Image
import ComponentLoader.Query.Request

/-
  Writing a query that was read, and reading it again,
  changes nothing: every value that a query string can
  give is built anew from its leaves.

  Main declarations:
    * `writeAll`
    * `Builds`
    * `Image.rebuilt_slot`
    * `parse_render_of_readsAs`
    * `parse_render_of_params`
    * `parse_render_parse`
-/

------------------------------------------------------------
-- Writing Leaves
------------------------------------------------------------

namespace ComponentLoader

namespace Query

/- What a slot holds after a leaf is written into it. -/
def Leaf.write
    (l : Leaf)
    (slot : Option Value) : Value :=
  place l.segments l.value slot

/- The slot after leaves are written one after another. -/
def writeAll
    (leaves : List Leaf)
    (slot : Option Value) : Option Value :=
  leaves.foldl (fun slot l => some (l.write slot)) slot

@[simp] theorem writeAll_nil
    (slot : Option Value) :
    writeAll [] slot = slot :=
  rfl

@[simp] theorem writeAll_cons
    (l : Leaf)
    (rest : List Leaf)
    (slot : Option Value) :
    writeAll (l :: rest) slot =
      writeAll rest (some (l.write slot)) :=
  rfl

theorem writeAll_append
    (first second : List Leaf)
    (slot : Option Value) :
    writeAll (first ++ second) slot =
      writeAll second (writeAll first slot) :=
  List.foldl_append

@[simp] theorem slotItems_list
    (items : List Value) :
    slotItems (some (.list items)) = items :=
  rfl

/- Leaves build a value where nothing was. -/
def Builds
    (leaves : List Leaf)
    (v : Value) : Prop :=
  writeAll leaves none = some v

/- A value is built anew from its leaves. -/
def Rebuilt
    (v : Value) : Prop :=
  writeAll v.leaves none = some v

/- Nothing is built without a leaf. -/
theorem Builds.leaves_ne_nil
    {leaves : List Leaf}
    {v : Value}
    (hBuilds : Builds leaves v) :
    leaves ≠ [] := by
  rintro rfl
  rw [Builds, writeAll_nil] at hBuilds
  exact absurd hBuilds (by simp)

/- What can be built has a leaf. -/
theorem Rebuilt.leaves_ne_nil
    {v : Value}
    (hRebuilt : Rebuilt v) :
    v.leaves ≠ [] :=
  Builds.leaves_ne_nil hRebuilt

/- The leaves of every entry build what another one holds. -/
def BuildsAll
    (entries built : Dict Value) : Prop :=
  List.Forall₂
    (fun entry new =>
      new.1 = entry.1 ∧ Builds entry.2.leaves new.2)
    entries built

theorem buildsAll_of_rebuilt
    {entries : Dict Value}
    (hRebuilt : ∀ entry ∈ entries, Rebuilt entry.2) :
    BuildsAll entries entries :=
  List.forall₂_same.mpr fun entry hMem =>
    ⟨rfl, hRebuilt entry hMem⟩

/- A leaf written first builds a value of its segments. -/
theorem place_none
    (value : Value) :
    (segments : List Text) →
      place segments value none = nest segments value
  | [] => by simp [place, nest]
  | [segment] => by
      by_cases hIndex : Key.isIndex segment = true
      · simp [place, nest, hIndex, slotItems]
      · simp [place, nest, hIndex, slotEntries, Dict.alter]
  | segment :: next :: rest => by
      have hInner := place_none value (next :: rest)
      by_cases hIndex : Key.isIndex segment = true
      · have hNest :
            nest (segment :: next :: rest) value =
              .list [nest (next :: rest) value] := by
          rw [nest, if_pos hIndex]
        rw [hNest, place, if_pos hIndex]
        cases Key.index? segment <;> simp [slotItems]
      · rw [place, if_neg hIndex, nest, if_neg hIndex]
        simp [slotEntries, Dict.alter, hInner]

------------------------------------------------------------
-- Leaves Of An Entry
------------------------------------------------------------

/- Leaves of one key alter the last entry. -/
theorem foldl_alter_append
    {key : Text}
    {d : Dict Value}
    (hNew : key ∉ Dict.keys d)
    (leaves : List Leaf)
    {old v : Value}
    (hAll : writeAll leaves (some old) = some v) :
    leaves.foldl (fun d l => Dict.alter key l.write d)
        (d ++ [(key, old)]) =
      d ++ [(key, v)] := by
  induction leaves generalizing old with
  | nil =>
      have hEq : old = v := by simpa using hAll
      simp [hEq]
  | cons l rest ih =>
      rw [writeAll_cons] at hAll
      rw [List.foldl_cons, Dict.alter_append_self hNew]
      exact ih hAll

/- The leaves of a value make a new entry of what they build. -/
theorem foldl_alter
    {key : Text}
    {d : Dict Value}
    (hNew : key ∉ Dict.keys d)
    {leaves : List Leaf}
    {v : Value}
    (hBuilds : Builds leaves v) :
    leaves.foldl (fun d l => Dict.alter key l.write d) d =
      d ++ [(key, v)] := by
  have hSome := hBuilds.leaves_ne_nil
  cases leaves with
  | nil => exact absurd rfl hSome
  | cons l rest =>
      rw [Builds, writeAll_cons] at hBuilds
      rw [List.foldl_cons, Dict.alter_of_not_mem hNew]
      exact foldl_alter_append hNew rest hBuilds

/- A key that addresses no list writes into a map. -/
theorem write_under_key
    {sub : Text}
    (hPlain : Key.isIndex sub = false)
    (l : Leaf)
    (slot : Option Value) :
    (l.under sub).write slot =
      .map (Dict.alter sub l.write (slotEntries slot)) := by
  rcases l with ⟨segments, value⟩
  cases segments with
  | nil =>
      simp only [Leaf.write, Leaf.under, place, hPlain,
        Bool.false_eq_true, if_false]
      rfl
  | cons segment rest =>
      simp only [Leaf.write, Leaf.under, place, hPlain,
        Bool.false_eq_true, if_false]
      rfl

/- Leaves under such a key are written into one entry. -/
theorem writeAll_under_key
    {sub : Text}
    (hPlain : Key.isIndex sub = false)
    {leaves : List Leaf}
    (hSome : leaves ≠ [])
    (slot : Option Value) :
    writeAll (leaves.map (Leaf.under sub)) slot =
      some (.map (leaves.foldl
        (fun d l => Dict.alter sub l.write d)
        (slotEntries slot))) := by
  induction leaves generalizing slot with
  | nil => exact absurd rfl hSome
  | cons l rest ih =>
      rw [List.map_cons, writeAll_cons,
        write_under_key hPlain, List.foldl_cons]
      cases rest with
      | nil => rfl
      | cons next more => exact ih (by simp) _

/- The leaves of a map build its entries. -/
theorem writeAll_entryLeaves
    {entries built : Dict Value}
    (hSome : entries ≠ [])
    (hPlain : ∀ key ∈ Dict.keys entries,
      Key.isIndex key = false)
    (hBuilds : BuildsAll entries built)
    (slot : Option Value)
    (hDistinct :
      (Dict.keys (slotEntries slot ++ entries)).Nodup) :
    writeAll (Value.entryLeaves entries) slot =
      some (.map (slotEntries slot ++ built)) := by
  induction hBuilds generalizing slot with
  | nil => exact absurd rfl hSome
  | @cons entry new rest more hFirst hRest ih =>
      rcases entry with ⟨sub, item⟩
      rcases new with ⟨key, v⟩
      rcases hFirst with ⟨hEq, hItem⟩
      simp only at hEq hItem
      subst hEq
      have hSub : Key.isIndex key = false :=
        hPlain key (by simp [Dict.keys])
      have hNew := Dict.not_mem_keys_of_nodup hDistinct
      have hHead :
          writeAll (item.leaves.map (Leaf.under key)) slot =
            some (.map (slotEntries slot ++
              [(key, v)])) := by
        rw [writeAll_under_key hSub hItem.leaves_ne_nil,
          foldl_alter hNew hItem]
      rw [Value.entryLeaves, writeAll_append, hHead]
      cases rest with
      | nil =>
          rw [List.forall₂_nil_left_iff] at hRest
          simp [Value.entryLeaves, hRest]
      | cons next others =>
          have hMore := ih (by simp)
            (fun k hMem => hPlain k
              (List.mem_cons_of_mem key hMem))
            (some (.map (slotEntries slot ++ [(key, v)])))
            (by simpa [slotEntries, Dict.keys]
              using hDistinct)
          rw [hMore]
          simp [slotEntries]

/- The leaves of a map build a map of what its items build. -/
theorem builds_map
    {entries built : Dict Value}
    (hKeys : Image.MapKeys false (Dict.keys entries))
    (hBuilds : BuildsAll entries built) :
    Builds (Value.map entries).leaves (.map built) := by
  have hSome : entries ≠ [] := by
    rintro rfl
    rcases hKeys.first with ⟨first, hHead, -⟩
    simp [Dict.keys] at hHead
  have hAll := writeAll_entryLeaves hSome (hKeys.plain rfl)
    hBuilds none (by simpa [slotEntries] using hKeys.distinct)
  simpa [Builds, Value.leaves, slotEntries] using hAll

------------------------------------------------------------
-- Leaves Of An Item
------------------------------------------------------------

/- A leaf under brackets is added to a list. -/
theorem write_under_nil
    (value : Value)
    (slot : Option Value) :
    (Leaf.under [] { segments := [], value := value }).write
        slot =
      .list (slotItems slot ++ [value]) := by
  simp [Leaf.write, Leaf.under, place]

/- A leaf under the next index is added to a list. -/
theorem write_under_index
    (l : Leaf)
    (slot : Option Value) :
    (l.under (Text.ofNat (slotItems slot).length)).write
        slot =
      .list (slotItems slot ++
        [nest l.segments l.value]) := by
  rcases l with ⟨segments, value⟩
  cases segments with
  | nil => simp [Leaf.write, Leaf.under, place, nest]
  | cons next rest =>
      simp only [Leaf.write, Leaf.under, place,
        Key.isIndex_ofNat, if_true, Key.index?_ofNat]
      split_ifs <;> simp

/- A leaf under the last index is written into a map. -/
theorem write_under_last
    {items : List Value}
    (hFits : items.length < UInt64.size)
    (d : Dict Value)
    (sub : Text)
    (l : Leaf) :
    ((l.under sub).under (Text.ofNat items.length)).write
        (some (.list (items ++ [.map d]))) =
      .list (items ++
        [.map (Dict.alter sub l.write d)]) := by
  have hGet : (items ++ [Value.map d])[items.length]? =
      some (.map d) := by simp
  simp only [Leaf.write, Leaf.under, place,
    Key.isIndex_ofNat, if_true, Key.index?_ofNat,
    if_pos hFits, slotItems, hGet]
  rw [List.set_append_right _ _ (Nat.le_refl _)]
  simp only [Nat.sub_self, List.set_cons_zero]
  rfl

/- Leaves of one entry of a map that is the last item. -/
theorem writeAll_under_last
    {items : List Value}
    (hFits : items.length < UInt64.size)
    (d : Dict Value)
    (sub : Text)
    (leaves : List Leaf) :
    writeAll ((leaves.map (Leaf.under sub)).map
          (Leaf.under (Text.ofNat items.length)))
        (some (.list (items ++ [.map d]))) =
      some (.list (items ++ [.map (leaves.foldl
        (fun d l => Dict.alter sub l.write d) d)])) := by
  induction leaves generalizing d with
  | nil => rfl
  | cons l rest ih =>
      rw [List.map_cons, List.map_cons, writeAll_cons,
        write_under_last hFits, ih, List.foldl_cons]

/- Further entries of a map that is the last item. -/
theorem writeAll_entryLeaves_last
    {items : List Value}
    (hFits : items.length < UInt64.size)
    {entries built : Dict Value}
    (hBuilds : BuildsAll entries built)
    (d : Dict Value)
    (hDistinct : (Dict.keys (d ++ entries)).Nodup) :
    writeAll ((Value.entryLeaves entries).map
          (Leaf.under (Text.ofNat items.length)))
        (some (.list (items ++ [.map d]))) =
      some (.list (items ++ [.map (d ++ built)])) := by
  induction hBuilds generalizing d with
  | nil => simp [Value.entryLeaves]
  | @cons entry new rest more hFirst hRest ih =>
      rcases entry with ⟨sub, item⟩
      rcases new with ⟨key, v⟩
      rcases hFirst with ⟨hEq, hItem⟩
      simp only at hEq hItem
      subst hEq
      have hNew := Dict.not_mem_keys_of_nodup hDistinct
      have hMore := ih (d ++ [(key, v)])
        (by simpa [Dict.keys] using hDistinct)
      rw [Value.entryLeaves, List.map_append,
        writeAll_append, writeAll_under_last hFits,
        foldl_alter hNew hItem, hMore]
      simp

/-
  A map is added to a list by its first leaf, and the
  others are written into it.
-/
theorem writeAll_map_item
    {slot : Option Value}
    (hFits : (slotItems slot).length < UInt64.size)
    {entries built : Dict Value}
    (hKeys : Image.MapKeys true (Dict.keys entries))
    (hBuilds : BuildsAll entries built) :
    writeAll ((Value.entryLeaves entries).map
          (Leaf.under (Text.ofNat (slotItems slot).length)))
        slot =
      some (.list (slotItems slot ++ [.map built])) := by
  cases hBuilds with
  | nil =>
      rcases hKeys.first with ⟨first, hHead, -⟩
      simp [Dict.keys] at hHead
  | @cons entry new rest more hFirst hRest =>
      rcases entry with ⟨sub, item⟩
      rcases new with ⟨key, v⟩
      rcases hFirst with ⟨hEq, hItem⟩
      simp only at hEq hItem
      subst hEq
      have hPlain : Key.isIndex key = false := by
        rcases hKeys.first with ⟨first, hHead, hFirst⟩
        have hEq : key = first := by
          simpa [Dict.keys] using hHead
        rw [hEq]
        exact hFirst
      have hAll :
          item.leaves.foldl
              (fun d l => Dict.alter key l.write d) [] =
            [] ++ [(key, v)] :=
        foldl_alter (by simp [Dict.keys]) hItem
      have hSome := hItem.leaves_ne_nil
      cases hLeaves : item.leaves with
      | nil => exact absurd hLeaves hSome
      | cons l others =>
          rw [hLeaves, List.foldl_cons] at hAll
          have hNest :
              nest (l.under key).segments
                  (l.under key).value =
                .map (Dict.alter key l.write []) := by
            simp only [Leaf.under, nest, hPlain,
              Bool.false_eq_true, if_false, Dict.alter,
              Leaf.write, place_none]
          rw [Value.entryLeaves, hLeaves, List.map_cons,
            List.cons_append, List.map_cons, writeAll_cons,
            write_under_index, hNest, List.map_append,
            writeAll_append, writeAll_under_last hFits, hAll,
            List.nil_append,
            writeAll_entryLeaves_last hFits hRest]
          · rfl
          · simpa [Dict.keys] using hKeys.distinct

------------------------------------------------------------
-- Single Leaves
------------------------------------------------------------

/- A leaf is the only leaf of itself. -/
theorem leaves_of_isLeaf
    {v : Value}
    (hLeaf : v.isLeaf = true) :
    v.leaves = [{ segments := [], value := v }] := by
  cases v <;> simp_all [Value.isLeaf, Value.leaves]

/-
  A value with a single leaf is the one that its segments
  build, although the segments written for it may differ
  from those it was built from.
-/
theorem leaves_nest
    {segments : List Text}
    (hSegments : ∀ segment ∈ segments, ']' ∉ segment)
    {leaf : Value}
    (hLeaf : leaf.isLeaf = true) :
    ∃ written,
      (nest segments leaf).leaves =
          [{ segments := written, value := leaf }] ∧
        nest written leaf = nest segments leaf ∧
        ∀ segment ∈ written, ']' ∉ segment := by
  induction segments with
  | nil => exact ⟨[], leaves_of_isLeaf hLeaf, rfl, by simp⟩
  | cons segment rest ih =>
      rcases ih fun s hMem => hSegments s
          (List.mem_cons_of_mem segment hMem) with
        ⟨written, hLeaves, hNest, hWritten⟩
      have hClosed : ∀ first : Text, ']' ∉ first →
          ∀ s ∈ first :: written, ']' ∉ s := by
        intro first hFirst s hMem
        rcases List.mem_cons.mp hMem with rfl | hMem
        · exact hFirst
        · exact hWritten s hMem
      by_cases hIndex : Key.isIndex segment = true
      · have hList : nest (segment :: rest) leaf =
            .list [nest rest leaf] := by
          rw [nest, if_pos hIndex]
        rw [hList]
        by_cases hNested : (nest rest leaf).isNested = true
        · refine ⟨Text.ofNat 0 :: written, ?_, ?_,
            hClosed _ (Key.not_mem_of_isIndex
              (Key.isIndex_ofNat 0))⟩
          · simp [Value.leaves, hNested, Value.indexedLeaves,
              hLeaves, Leaf.under]
          · rw [nest, Key.isIndex_ofNat, if_pos rfl, hNest]
        · refine ⟨[] :: written, ?_, ?_,
            hClosed _ (by simp)⟩
          · simp [Value.leaves, hNested, Value.plainLeaves,
              hLeaves, Leaf.under]
          · rw [nest, Key.isIndex_nil, if_pos rfl, hNest]
      · refine ⟨segment :: written, ?_, ?_,
          hClosed _ (hSegments segment (by simp))⟩
        · rw [nest, if_neg hIndex]
          simp [Value.leaves, Value.entryLeaves, hLeaves,
            Leaf.under]
        · rw [nest, if_neg hIndex, nest, if_neg hIndex,
            hNest]

/- A value with a single leaf is added to a list by it. -/
theorem writeAll_chain_item
    {v : Value}
    (hChain : Image.Chain v)
    (slot : Option Value) :
    writeAll (v.leaves.map
          (Leaf.under (Text.ofNat (slotItems slot).length)))
        slot =
      some (.list (slotItems slot ++ [v])) := by
  rcases hChain with ⟨segments, leaf, hLeaf, hSegments, rfl⟩
  rcases leaves_nest hSegments hLeaf with
    ⟨written, hLeaves, hNest, -⟩
  rw [hLeaves, List.map_singleton, writeAll_cons,
    write_under_index, writeAll_nil, hNest]

------------------------------------------------------------
-- Leaves Side By Side
------------------------------------------------------------

/- Leaves side by side have no segments. -/
theorem plainLeaves_of_isLeaf
    {items : List Value}
    (hItems : ∀ v ∈ items, v.isLeaf = true) :
    Value.plainLeaves items =
      items.map fun v => { segments := [], value := v } := by
  induction items with
  | nil => rfl
  | cons item rest ih =>
      have hRest := ih fun v hMem =>
        hItems v (List.mem_cons_of_mem item hMem)
      rw [Value.plainLeaves, hRest,
        leaves_of_isLeaf (hItems item (by simp))]
      rfl

/- Leaves under empty brackets are added to a list. -/
theorem writeAll_under_nil
    {items : List Value}
    (hSome : items ≠ [])
    (slot : Option Value) :
    writeAll ((items.map fun v =>
          { segments := [], value := v }).map
          (Leaf.under [])) slot =
      some (.list (slotItems slot ++ items)) := by
  induction items generalizing slot with
  | nil => exact absurd rfl hSome
  | cons item rest ih =>
      rw [List.map_cons, List.map_cons, writeAll_cons,
        write_under_nil]
      cases rest with
      | nil => rfl
      | cons next more =>
          rw [ih (by simp)]
          simp [slotItems]

/- Leaves of a repeated key are added to it. -/
theorem writeAll_repeated
    (items rest : List Value) :
    writeAll (rest.map fun v =>
          { segments := [], value := v })
        (some (.repeated items)) =
      some (.repeated (items ++ rest)) := by
  induction rest generalizing items with
  | nil => simp
  | cons v more ih =>
      rw [List.map_cons, writeAll_cons]
      have hStep :
          Leaf.write { segments := [], value := v }
              (some (.repeated items)) =
            .repeated (items ++ [v]) := rfl
      rw [hStep, ih]
      simp

/- A key is repeated once it is written again. -/
theorem writeAll_occurrences
    {first : Value}
    (hFirst : Image.Occurrence first)
    (hRebuilt : Rebuilt first)
    {rest : List Value}
    (hSome : rest ≠ [])
    (hRest : ∀ v ∈ rest, v.isLeaf = true) :
    Rebuilt (.repeated (first :: rest)) := by
  rw [Rebuilt, Value.leaves, Value.plainLeaves,
    writeAll_append, hRebuilt, plainLeaves_of_isLeaf hRest]
  cases rest with
  | nil => exact absurd rfl hSome
  | cons second more =>
      have hPush :
          Leaf.write { segments := [], value := second }
              (some first) =
            .repeated [first, second] := by
        cases first <;>
          simp_all [Image.Occurrence, Leaf.write, place,
            Value.push]
      rw [List.map_cons, writeAll_cons, hPush,
        writeAll_repeated]
      rfl

/- A list without brackets in it holds leaves. -/
theorem isLeaf_of_items
    {i : Nat}
    {items : List Value}
    (hItems : Image.Items i items)
    (hPlain : ¬ items.any Value.isNested = true) :
    ∀ v ∈ items, v.isLeaf = true := by
  induction items generalizing i with
  | nil => simp
  | cons item rest ih =>
      simp only [Image.Items] at hItems
      simp only [List.any_cons, Bool.or_eq_true, not_or]
        at hPlain
      intro v hMem
      rcases List.mem_cons.mp hMem with rfl | hMem
      · cases v <;>
          simp_all [Image.Item, Value.isLeaf,
            Value.isNested]
      · exact ih hItems.2 hPlain.2 v hMem

------------------------------------------------------------
-- Values Built Anew
------------------------------------------------------------

namespace Image

mutual

/- What a key can hold is built anew from its leaves. -/
theorem rebuilt_slot :
    (v : Value) → Slot v → Rebuilt v
  | .flag, _ => by simp [Rebuilt, Value.leaves, Leaf.write,
      place]
  | .text _, _ => by simp [Rebuilt, Value.leaves,
      Leaf.write, place]
  | .list items, hSlot => by
      simp only [Slot] at hSlot
      rcases hSlot with ⟨hSome, hItems⟩
      by_cases hNested : items.any Value.isNested = true
      · have hAll := writeAll_items 0 items hItems none rfl
        rw [if_neg hSome] at hAll
        rw [Rebuilt, Value.leaves, if_pos hNested, hAll]
        rfl
      · have hLeaves := isLeaf_of_items hItems hNested
        rw [Rebuilt, Value.leaves, if_neg hNested,
          plainLeaves_of_isLeaf hLeaves,
          writeAll_under_nil hSome]
        rfl
  | .repeated [], hSlot => by
      simp [Slot, Occurrences] at hSlot
  | .repeated (first :: rest), hSlot => by
      simp only [Slot, Occurrences] at hSlot
      rcases hSlot with ⟨hFirst, hSome, hRest⟩
      have hRebuilt : Slot first → Rebuilt first :=
        rebuilt_slot first
      have hSlot : Slot first := by
        cases first <;> simp_all [Occurrence, Slot]
      exact writeAll_occurrences hFirst (hRebuilt hSlot)
        hSome hRest
  | .map entries, hSlot => by
      simp only [Slot] at hSlot
      exact builds_map hSlot.1 (buildsAll_of_rebuilt
        (rebuilt_entries entries hSlot.2))
termination_by structural v => v

/- The items of a list are added to it by their leaves. -/
theorem writeAll_items
    (i : Nat) :
    (items : List Value) → Items i items →
      ∀ slot, (slotItems slot).length = i →
        writeAll (Value.indexedLeaves i items) slot =
          if items = [] then slot
          else some (.list (slotItems slot ++ items))
  | [], _ => by
      intro slot _
      simp [Value.indexedLeaves]
  | item :: rest, hItems => by
      intro slot hLength
      simp only [Items] at hItems
      have hFirst :=
        writeAll_item i item hItems.1 slot hLength
      have hRest := writeAll_items (i + 1) rest hItems.2
        (some (.list (slotItems slot ++ [item])))
        (by simp [hLength])
      rw [Value.indexedLeaves, writeAll_append, hFirst,
        hRest]
      cases rest with
      | nil => simp
      | cons next more => simp
termination_by structural items => items

/- An item of a list is added to it by its leaves. -/
theorem writeAll_item
    (i : Nat) :
    (item : Value) → Item i item →
      ∀ slot, (slotItems slot).length = i →
        writeAll (item.leaves.map
              (Leaf.under (Text.ofNat i))) slot =
          some (.list (slotItems slot ++ [item]))
  | .flag, _ => by
      rintro slot rfl
      exact writeAll_chain_item
        ⟨[], .flag, rfl, by simp, rfl⟩ slot
  | .text t, _ => by
      rintro slot rfl
      exact writeAll_chain_item
        ⟨[], .text t, rfl, by simp, rfl⟩ slot
  | .list items, hItem => by
      rintro slot rfl
      simp only [Item] at hItem
      exact writeAll_chain_item hItem slot
  | .repeated items, hItem => by
      simp [Item] at hItem
  | .map entries, hItem => by
      rintro slot rfl
      have hRebuilt := rebuilt_entries entries
      simp only [Item] at hItem
      rcases hItem with hChain | ⟨hFits, hKeys, hEntries⟩
      · exact writeAll_chain_item hChain slot
      · rw [Value.leaves]
        exact writeAll_map_item hFits hKeys
          (buildsAll_of_rebuilt (hRebuilt hEntries))
termination_by structural item => item

/- The items of a map are built anew from their leaves. -/
theorem rebuilt_entries :
    (entries : List (Text × Value)) → Entries entries →
      ∀ entry ∈ entries, Rebuilt entry.2
  | [], _ => by simp
  | (key, item) :: rest, hEntries => by
      simp only [Entries] at hEntries
      intro entry hMem
      have hItem := rebuilt_slot item hEntries.1
      have hRest := rebuilt_entries rest hEntries.2
      rcases List.mem_cons.mp hMem with rfl | hMem
      · exact hItem
      · exact hRest entry hMem
termination_by structural entries => entries

end

------------------------------------------------------------
-- Segments Of Leaves
------------------------------------------------------------

/- No segment of a leaf closes a bracket. -/
def Closed
    (l : Leaf) : Prop :=
  ∀ segment ∈ l.segments, ']' ∉ segment

theorem closed_under
    {segment : Text}
    (hSegment : ']' ∉ segment)
    {leaves : List Leaf}
    (hLeaves : ∀ l ∈ leaves, Closed l) :
    ∀ l ∈ leaves.map (Leaf.under segment), Closed l := by
  intro l hMem
  rcases List.mem_map.mp hMem with ⟨inner, hInner, rfl⟩
  intro s hMem
  rcases List.mem_cons.mp hMem with rfl | hMem
  · exact hSegment
  · exact hLeaves inner hInner s hMem

/- Leaves side by side have no segments to close. -/
theorem closed_plainLeaves
    {items : List Value}
    (hItems : ∀ v ∈ items, v.isLeaf = true) :
    ∀ l ∈ Value.plainLeaves items, Closed l := by
  rw [plainLeaves_of_isLeaf hItems]
  intro l hMem
  rcases List.mem_map.mp hMem with ⟨v, -, rfl⟩
  simp [Closed]

theorem closed_chain
    {v : Value}
    (hChain : Chain v) :
    ∀ l ∈ v.leaves, Closed l := by
  rcases hChain with ⟨segments, leaf, hLeaf, hSegments, rfl⟩
  rcases leaves_nest hSegments hLeaf with
    ⟨written, hLeaves, -, hWritten⟩
  intro l hMem
  rw [hLeaves, List.mem_singleton] at hMem
  rw [hMem]
  exact hWritten

mutual

theorem closed_slot :
    (v : Value) → Slot v → ∀ l ∈ v.leaves, Closed l
  | .flag, _ => by simp [Value.leaves, Closed]
  | .text _, _ => by simp [Value.leaves, Closed]
  | .list items, hSlot => by
      simp only [Slot] at hSlot
      by_cases hNested : items.any Value.isNested = true
      · rw [Value.leaves, if_pos hNested]
        exact closed_items 0 items hSlot.2
      · rw [Value.leaves, if_neg hNested]
        exact closed_under (by simp) (closed_plainLeaves
          (isLeaf_of_items hSlot.2 hNested))
  | .repeated [], hSlot => by
      simp [Slot, Occurrences] at hSlot
  | .repeated (first :: rest), hSlot => by
      simp only [Slot, Occurrences] at hSlot
      rcases hSlot with ⟨hFirst, -, hRest⟩
      have hClosed := closed_slot first
      have hSlot : Slot first := by
        cases first <;> simp_all [Occurrence, Slot]
      intro l hMem
      rw [Value.leaves, Value.plainLeaves,
        List.mem_append] at hMem
      rcases hMem with hMem | hMem
      · exact hClosed hSlot l hMem
      · exact closed_plainLeaves hRest l hMem
  | .map entries, hSlot => by
      simp only [Slot] at hSlot
      rw [Value.leaves]
      exact closed_entries entries hSlot.2 hSlot.1.closed
termination_by structural v => v

theorem closed_items
    (i : Nat) :
    (items : List Value) → Items i items →
      ∀ l ∈ Value.indexedLeaves i items, Closed l
  | [], _ => by simp [Value.indexedLeaves]
  | item :: rest, hItems => by
      simp only [Items] at hItems
      have hItem := closed_item i item hItems.1
      have hRest := closed_items (i + 1) rest hItems.2
      intro l hMem
      rw [Value.indexedLeaves, List.mem_append] at hMem
      rcases hMem with hMem | hMem
      · exact closed_under (Key.not_mem_of_isIndex
          (Key.isIndex_ofNat i)) hItem l hMem
      · exact hRest l hMem
termination_by structural items => items

theorem closed_item
    (i : Nat) :
    (item : Value) → Item i item →
      ∀ l ∈ item.leaves, Closed l
  | .flag, _ => by simp [Value.leaves, Closed]
  | .text _, _ => by simp [Value.leaves, Closed]
  | .list items, hItem => by
      simp only [Item] at hItem
      exact closed_chain hItem
  | .repeated items, hItem => by
      simp [Item] at hItem
  | .map entries, hItem => by
      have hEntries := closed_entries entries
      simp only [Item] at hItem
      rcases hItem with hChain | ⟨-, hKeys, hInner⟩
      · exact closed_chain hChain
      · rw [Value.leaves]
        exact hEntries hInner hKeys.closed
termination_by structural item => item

theorem closed_entries :
    (entries : List (Text × Value)) → Entries entries →
      (∀ key ∈ Dict.keys entries, ']' ∉ key) →
      ∀ l ∈ Value.entryLeaves entries, Closed l
  | [], _, _ => by simp [Value.entryLeaves]
  | (key, item) :: rest, hEntries, hKeys => by
      simp only [Entries] at hEntries
      have hItem := closed_slot item hEntries.1
      have hRest := closed_entries rest hEntries.2
        fun k hMem => hKeys k (List.mem_cons_of_mem key hMem)
      intro l hMem
      rw [Value.entryLeaves, List.mem_append] at hMem
      rcases hMem with hMem | hMem
      · exact closed_under
          (hKeys key (by simp [Dict.keys])) hItem l hMem
      · exact hRest l hMem
termination_by structural entries => entries

end

/- A value without brackets has leaves without segments. -/
theorem segments_of_bare
    {v : Value}
    (hBare : Bare v) :
    ∀ l ∈ v.leaves, l.segments = [] := by
  cases v with
  | flag => simp [Value.leaves]
  | text t => simp [Value.leaves]
  | list items => simp [Bare] at hBare
  | map entries => simp [Bare] at hBare
  | repeated items =>
      have hItems : ∀ v ∈ items, v.isLeaf = true := by
        simpa [Bare] using hBare
      rw [Value.leaves, plainLeaves_of_isLeaf hItems]
      intro l hMem
      rcases List.mem_map.mp hMem with ⟨v, -, rfl⟩
      rfl

/- The key of a leaf is split into its root and segments. -/
theorem split_leaf
    {key : Text}
    {v : Value}
    (hRoot : Root key v)
    {l : Leaf}
    (hLeaf : l ∈ v.leaves) :
    Key.split (l.pair key).key =
      { root := key, segments := l.segments } := by
  by_cases hOpen : '[' ∈ key
  · have hNone := segments_of_bare (hRoot.bare hOpen) l hLeaf
    simp only [Leaf.pair, hNone, Key.brackets_nil,
      List.append_nil]
    exact hRoot.whole
  · exact Key.split_append_brackets hRoot.nonempty hOpen
      (closed_slot v hRoot.slot l hLeaf)

end Image

------------------------------------------------------------
-- The Round Trip
------------------------------------------------------------

/-
  Whether an entry is read back as another one: its leaves
  build the other value, and each is written under a key
  that is split into the key of the entry and its segments.
-/
structure ReadsAs
    (entry new : Text × Value) : Prop where
  key : new.1 = entry.1
  nonempty : entry.1 ≠ []
  builds : Builds entry.2.leaves new.2
  split : ∀ l ∈ entry.2.leaves,
    Key.split (l.pair entry.1).key =
      { root := entry.1, segments := l.segments }

/- What can be read is read back as it is. -/
theorem readsAs_of_root
    {entry : Text × Value}
    (hRoot : Image.Root entry.1 entry.2) :
    ReadsAs entry entry where
  key := rfl
  nonempty := hRoot.nonempty
  builds := Image.rebuilt_slot entry.2 hRoot.slot
  split := fun _ hLeaf => Image.split_leaf hRoot hLeaf

/- The pairs of an entry make what it is read back as. -/
theorem foldl_insertPair_entry
    {entry new : Text × Value}
    (hReads : ReadsAs entry new)
    {d : Dict Value}
    (hNew : entry.1 ∉ Dict.keys d) :
    (entry.2.leaves.map (Leaf.pair entry.1)).foldl
        insertPair d =
      d ++ [new] := by
  have hAll := foldl_alter hNew hReads.builds
  rw [← hReads.key] at hAll
  rw [← hAll, hReads.key, List.foldl_map]
  apply List.foldl_ext
  intro d l hMem
  simp only [insertPair, hReads.split l hMem]
  rfl

/- The pairs of parameters make what these are read as. -/
theorem foldl_insertPair_leafPairs
    {params built : Dict Value}
    (hReads : List.Forall₂ ReadsAs params built)
    {d : Dict Value}
    (hDistinct : (Dict.keys (d ++ params)).Nodup) :
    (leafPairs params).foldl insertPair d =
      d ++ built := by
  induction hReads generalizing d with
  | nil => simp [leafPairs]
  | @cons entry new rest more hFirst hRest ih =>
      have hNew := Dict.not_mem_keys_of_nodup hDistinct
      have hMore := ih (d := d ++ [new])
        (by simpa [Dict.keys, hFirst.key] using hDistinct)
      have hSplit : leafPairs (entry :: rest) =
          entry.2.leaves.map (Leaf.pair entry.1) ++
            leafPairs rest := rfl
      rw [hSplit, List.foldl_append,
        foldl_insertPair_entry hFirst hNew, hMore]
      simp

/- The string of a query is read entry by entry. -/
theorem parse_render_of_readsAs
    {q : Query}
    {built : Dict Value}
    (hReads : List.Forall₂ ReadsAs q.params built)
    (hDistinct : (Dict.keys q.params).Nodup) :
    parse q.render = { params := built } := by
  have hKeys : ∀ entry ∈ q.params, entry.1 ≠ [] := by
    intro entry hMem
    rcases List.mem_iff_getElem.mp hMem with ⟨i, hi, rfl⟩
    exact (hReads.get hi (hReads.length_eq ▸ hi)).nonempty
  have hFold := foldl_insertPair_leafPairs hReads
    (d := []) hDistinct
  rw [parse, pairs_render q hKeys, hFold]
  rfl

/-
  Parameters that a query string can give are read back
  from the string written for them.
-/
theorem parse_render_of_params
    {q : Query}
    (hParams : Image.Params q.params) :
    parse q.render = q :=
  parse_render_of_readsAs
    (List.forall₂_same.mpr fun entry hMem =>
      readsAs_of_root (hParams.roots entry hMem))
    hParams.distinct

end Query

------------------------------------------------------------
-- Requests
------------------------------------------------------------

namespace Request

/- A request is cut at its first question mark. -/
theorem splitText_append
    {path : Text}
    (hPath : '?' ∉ path)
    (query : Text) :
    splitText (path ++ '?' :: query) =
      (path, some query) := by
  simp only [splitText,
    Text.splitOnce_append path query hPath]

theorem splitText_of_not_mem
    {request : Text}
    (hRequest : '?' ∉ request) :
    splitText request = (request, none) := by
  simp only [splitText, Text.splitOnce_eq_none hRequest]

/- The path of a written request has no question mark. -/
theorem not_mem_path_parse
    (request : Text) :
    '?' ∉ (parse request).path := by
  simp only [parse]
  by_cases hMark : '?' ∈ request
  · rcases List.eq_append_cons_of_mem hMark with
      ⟨path, query, hText, hPath⟩
    rw [hText, splitText_append hPath]
    exact hPath
  · rw [splitText_of_not_mem hMark]
    exact hMark

/- A query string, or none, gives a written query. -/
theorem params_queryOf
    (existing : Option Text) :
    Query.Image.Params (queryOf existing).params := by
  cases existing with
  | none =>
      exact
        { distinct := by simp [queryOf, Query.empty, Dict.keys]
          roots := by simp [queryOf, Query.empty] }
  | some text => exact Query.Image.params_parse text

/- The query of a written request is a written query. -/
theorem params_query_parse
    (request : Text) :
    Query.Image.Params (parse request).query.params :=
  params_queryOf (splitText request).2

/-
  A path without question marks and parameters that a
  query string can give are read back.
-/
theorem parse_render_of_params
    {r : Request}
    (hPath : '?' ∉ r.path)
    (hParams : Query.Image.Params r.query.params) :
    parse r.render = r := by
  rcases r with ⟨path, query⟩
  by_cases hEmpty : query.isEmpty = true
  · have hQuery : query = Query.empty := by
      rcases query with ⟨params⟩
      have hNil : params = [] := by
        simpa [Query.isEmpty] using hEmpty
      rw [hNil]
      rfl
    have hRender : render ⟨path, query⟩ = path := by
      simp only [render, hEmpty, if_true]
    rw [hRender, parse, splitText_of_not_mem hPath, hQuery]
    rfl
  · have hRender : render ⟨path, query⟩ =
        path ++ '?' :: query.render := by
      simp [render, hEmpty]
    rw [hRender, parse, splitText_append hPath]
    simp only [queryOf, Query.parse_render_of_params hParams]

end Request

------------------------------------------------------------
-- Reading What Was Read And Written
------------------------------------------------------------

/-
  Writing what was read loses nothing, neither of a query,
  with the order of its keys at every depth, nor of a
  request.
-/
theorem parse_render_parse :
    (∀ input : Text,
      Query.parse (Query.parse input).render =
        Query.parse input) ∧
    (∀ request : Text,
      Request.parse (Request.parse request).render =
        Request.parse request) := by
  constructor
  · intro input
    exact Query.parse_render_of_params
      (Query.Image.params_parse input)
  · intro request
    exact Request.parse_render_of_params
      (Request.not_mem_path_parse request)
      (Request.params_query_parse request)

end ComponentLoader
