import Mathlib.Tactic
import ComponentLoader.Proofs.Query.Contents

/-
  The two ways to build a value under segments agree: at
  once, from the inside, and by writing it where nothing
  is.

  So the first pair of an indexed group adds to a list what
  writing into an empty map gives, and the pairs that
  follow are written into that map as into any other.

  Main declarations:
    * `Opens`
    * `putItem`
    * `place_of_opens`
    * `Member`
    * `writeAll_members`
    * `StartsGroup`
    * `insertNested_nil_eq_nest`
-/

------------------------------------------------------------
-- New Items
------------------------------------------------------------

namespace ComponentLoader

namespace Query

/-
  Whether a value that is written under an index and
  segments makes an item of its own: the segments end
  there, or no map stands at the index.
-/
def Opens
    (index : Text)
    (segments : List Text)
    (slot : Option Value) : Prop :=
  segments = [] ∨
    ∀ inner,
      addressed index (slotItems slot) ≠ some (.map inner)

/-
  Items with a new one: in the place of the one that the
  index addresses, if segments follow, or at the end.
-/
def putItem
    (index : Text)
    (segments : List Text)
    (items : List Value)
    (new : Value) : List Value :=
  match segments, Key.index? index with
  | _ :: _, some i =>
      if i < items.length then
        items.set i new
      else
        items ++ [new]
  | _, _ => items ++ [new]

/- A new item is what its segments build. -/
theorem place_of_opens
    {index : Text}
    (hIndex : Key.isIndex index = true)
    {segments : List Text}
    {slot : Option Value}
    (hOpens : Opens index segments slot)
    (value : Value) :
    place (index :: segments) value slot =
      .list (putItem index segments (slotItems slot)
        (nest segments value)) := by
  cases segments with
  | nil =>
      rw [place, if_pos hIndex]
      rfl
  | cons next rest =>
      have hNoMap : ∀ inner,
          addressed index (slotItems slot) ≠
            some (.map inner) := by
        rcases hOpens with hNil | hNoMap
        · cases hNil
        · exact hNoMap
      rw [place, if_pos hIndex]
      unfold putItem
      cases hAt : Key.index? index with
      | none => rfl
      | some i =>
          rw [addressed, hAt, Option.bind_some] at hNoMap
          dsimp only
          cases hGet : (slotItems slot)[i]? with
          | none =>
              rw [List.getElem?_eq_none_iff] at hGet
              rw [if_neg (Nat.not_lt.mpr hGet)]
          | some old =>
              rw [hGet] at hNoMap
              rcases List.getElem?_eq_some_iff.mp hGet with
                ⟨hLength, -⟩
              rw [if_pos hLength]
              cases old with
              | map inner => exact absurd rfl (hNoMap inner)
              | flag => rfl
              | text t => rfl
              | list items => rfl
              | repeated items => rfl

------------------------------------------------------------
-- Indexed Groups
------------------------------------------------------------

/-
  A pair of an indexed group, behind the index: a key, the
  segments that follow it, and the value.
-/
structure Member where
  key : Text
  segments : List Text
  value : Value

namespace Member

/- The leaf that the pair writes. -/
def leaf
    (index : Text)
    (m : Member) : Leaf :=
  { segments := index :: m.key :: m.segments
    value := m.value }

/- A map with the pair written into it. -/
def insert
    (entries : Dict Value)
    (m : Member) : Dict Value :=
  insertNested entries m.key m.segments m.value

end Member

section Group

variable {index : Text}
variable {i : Nat}
variable (hIndex : Key.isIndex index = true)
variable (hAt : Key.index? index = some i)

include hIndex hAt

/- A pair of a group is written into the map at the index. -/
theorem write_member
    {items : List Value}
    {entries : Dict Value}
    (hGet : items[i]? = some (.map entries))
    (m : Member) :
    (m.leaf index).write (some (.list items)) =
      .list (items.set i (.map (m.insert entries))) := by
  simp only [Leaf.write, Member.leaf, place, if_pos hIndex,
    slotItems_list, hAt, hGet]
  rfl

/- So are all pairs of the group, one after another. -/
theorem writeAll_members
    (group : List Member)
    {items : List Value}
    {entries : Dict Value}
    (hGet : items[i]? = some (.map entries)) :
    writeAll (group.map (Member.leaf index))
        (some (.list items)) =
      some (.list (items.set i
        (.map (group.foldl Member.insert entries)))) := by
  rcases List.getElem?_eq_some_iff.mp hGet with
    ⟨hLength, hItem⟩
  induction group generalizing items entries with
  | nil =>
      rw [List.map_nil, writeAll_nil, List.foldl_nil,
        ← hItem, List.set_getElem_self]
  | cons m rest ih =>
      rw [List.map_cons, writeAll_cons,
        write_member hIndex hAt hGet, ih, List.set_set,
        List.foldl_cons]
      · rw [List.getElem?_set_self hLength]
      · simpa using hLength
      · rw [List.getElem_set_self]

omit hIndex in
/- A new item within the list, or next to its end. -/
theorem getElem?_putItem
    (next : Text)
    (rest : List Text)
    {items : List Value}
    (hNear : i ≤ items.length)
    (new : Value) :
    (putItem index (next :: rest) items new)[i]? =
      some new := by
  simp only [putItem, hAt]
  split
  · next hLength => rw [List.getElem?_set_self hLength]
  · next hLength =>
      have hEnd : i = items.length := by omega
      rw [hEnd, List.getElem?_concat_length]

omit hIndex in
theorem set_putItem
    (next : Text)
    (rest : List Text)
    {items : List Value}
    (hNear : i ≤ items.length)
    (new newer : Value) :
    (putItem index (next :: rest) items new).set i newer =
      putItem index (next :: rest) items newer := by
  simp only [putItem, hAt]
  split
  · rw [List.set_set]
  · next hLength =>
      have hEnd : i = items.length := by omega
      rw [hEnd, List.set_append_right _ _ (Nat.le_refl _),
        Nat.sub_self, List.set_cons_zero]

end Group

------------------------------------------------------------
-- Values Built At Once
------------------------------------------------------------

/-
  Whether a pair with a key of a map behind its index is
  the first of a group: no map stands at the index yet, and
  the list is long enough for the next pairs to find it
  there.
-/
structure StartsGroup
    (index key : Text)
    (segments : List Text)
    (slot : Option Value) : Prop where
  position : Key.isIndex index = true
  near : ∃ i, Key.index? index = some i ∧
    i ≤ (slotItems slot).length
  opens : Opens index (key :: segments) slot
  plain : Key.isIndex key = false

/- The first pair of a group adds a map with one entry. -/
theorem StartsGroup.write_first
    {index key : Text}
    {segments : List Text}
    {slot : Option Value}
    (hStarts : StartsGroup index key segments slot)
    (value : Value) :
    Leaf.write (Member.leaf index ⟨key, segments, value⟩)
        slot =
      .list (putItem index (key :: segments)
        (slotItems slot)
        (.map [(key, nest segments value)])) := by
  have hNest :
      nest (key :: segments) value =
        .map [(key, nest segments value)] := by
    rw [nest, if_neg (by simp [hStarts.plain])]
  rw [← hNest]
  exact place_of_opens hStarts.position hStarts.opens value

/-
  A value that is written into an empty map is the one that
  its segments build.  So is an item that a pair adds to a
  list, and a whole group is written as if its map had been
  there, empty, from the start.
-/
theorem insertNested_nil_eq_nest
    (key : Text)
    (segments : List Text)
    (value : Value) :
    insertNested [] key segments value =
        [(key, nest segments value)] ∧
      (∀ index slot,
        Key.isIndex index = true →
        Opens index segments slot →
          place (index :: segments) value slot =
            .list (putItem index segments (slotItems slot)
              (place segments value none))) ∧
      ∀ index slot group,
        StartsGroup index key segments slot →
          writeAll
              ((⟨key, segments, value⟩ :: group).map
                (Member.leaf index)) slot =
            some (.list (putItem index (key :: segments)
              (slotItems slot)
              (.map ((⟨key, segments, value⟩ :: group).foldl
                Member.insert [])))) := by
  have hEmpty :
      insertNested [] key segments value =
        [(key, nest segments value)] := by
    rw [insertNested, Dict.alter, place_none]
  refine ⟨hEmpty, ?_, ?_⟩
  · intro index slot hIndex hOpens
    rw [place_of_opens hIndex hOpens, place_none]
  · intro index slot group hStarts
    rcases hStarts.near with ⟨i, hAt, hNear⟩
    have hGet := getElem?_putItem hAt key segments hNear
      (.map [(key, nest segments value)])
    have hInsert :
        Member.insert [] ⟨key, segments, value⟩ =
          [(key, nest segments value)] := hEmpty
    rw [List.map_cons, writeAll_cons, hStarts.write_first,
      writeAll_members hStarts.position hAt group hGet,
      set_putItem hAt key segments hNear, List.foldl_cons,
      hInsert]

/- A list behind a flag, and two pairs of a group. -/
theorem insertNested_nil_eq_nest_sample :
    Opens "1".toList ["".toList] (some (.list [.flag])) ∧
      StartsGroup "1".toList "x".toList ["".toList]
        (some (.list [.flag])) ∧
      place ["1".toList, "".toList] .flag
          (some (.list [.flag])) =
        .list [.flag, .list [.flag]] ∧
      writeAll
          ([⟨"x".toList, ["".toList], .flag⟩,
              ⟨"2".toList, [], .flag⟩].map
            (Member.leaf "1".toList))
          (some (.list [.flag])) =
        some (.list
          [.flag,
            .map
              [("x".toList, .list [.flag]),
                ("2".toList, .flag)]]) := by
  have hNoMap : ∀ inner,
      addressed "1".toList
          (slotItems (some (.list [.flag]))) ≠
        some (.map inner) := by
    intro inner
    have hNone :
        addressed "1".toList
          (slotItems (some (.list [.flag]))) = none := rfl
    rw [hNone]
    exact nofun
  have hStarts :
      StartsGroup "1".toList "x".toList ["".toList]
        (some (.list [.flag])) :=
    { position := by decide
      near := ⟨1, by decide, by decide⟩
      opens := Or.inr hNoMap
      plain := by decide }
  have hBuilt := insertNested_nil_eq_nest "x".toList
    ["".toList] .flag
  exact ⟨Or.inr hNoMap, hStarts,
    hBuilt.2.1 "1".toList (some (.list [.flag]))
      (by decide) (Or.inr hNoMap),
    hBuilt.2.2 "1".toList (some (.list [.flag]))
      [⟨"2".toList, [], .flag⟩] hStarts⟩

end Query

end ComponentLoader
