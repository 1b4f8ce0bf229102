import ComponentLoader.Proofs.Query.Escape
import ComponentLoader.Proofs.Query.Key
import ComponentLoader.Proofs.Text.Cuts
import ComponentLoader.Query.Parser
import ComponentLoader.Query.Printer

/-
  The leaves of a value: its flags and texts, each with
  the segments that lead to it.  The string of a query
  writes one pair for every leaf, and reading the string
  gives these pairs back.

  Main declarations:
    * `Leaf` and `Value.leaves`
    * `Value.pieces_escape`
    * `pairs_render`
-/

------------------------------------------------------------
-- Leaves
------------------------------------------------------------

namespace ComponentLoader

namespace Query

/- Whether a value is a flag or a text. -/
def Value.isLeaf : Value → Bool
  | flag => true
  | text _ => true
  | _ => false

/- A flag or a text and the segments that lead to it. -/
structure Leaf where
  segments : List Text
  value : Value

/- A leaf with one more segment before its own. -/
def Leaf.under
    (segment : Text)
    (l : Leaf) : Leaf :=
  { segments := segment :: l.segments, value := l.value }

namespace Value

mutual

/- The leaves of a value, in the order they are written. -/
def leaves : Value → List Leaf
  | flag => [{ segments := [], value := flag }]
  | text t => [{ segments := [], value := text t }]
  | list items =>
      if items.any isNested then
        indexedLeaves 0 items
      else
        (plainLeaves items).map (Leaf.under [])
  | repeated items => plainLeaves items
  | map entries => entryLeaves entries
termination_by structural v => v

/- The leaves of items under one key. -/
def plainLeaves : List Value → List Leaf
  | [] => []
  | item :: rest => leaves item ++ plainLeaves rest
termination_by structural vs => vs

/- The leaves of items under consecutive indices. -/
def indexedLeaves
    (i : Nat) : List Value → List Leaf
  | [] => []
  | item :: rest =>
      (leaves item).map (Leaf.under (Text.ofNat i)) ++
        indexedLeaves (i + 1) rest
termination_by structural vs => vs

/- The leaves of the entries of a map. -/
def entryLeaves : List (Text × Value) → List Leaf
  | [] => []
  | (sub, item) :: rest =>
      (leaves item).map (Leaf.under sub) ++
        entryLeaves rest
termination_by structural entries => entries

end

------------------------------------------------------------
-- Every Leaf Is A Flag Or A Text
------------------------------------------------------------

/- Segments in front of leaves leave their values alone. -/
theorem isLeaf_of_mem_map_under
    {leaves : List Leaf}
    (hLeaves : ∀ l ∈ leaves, l.value.isLeaf = true)
    (segment : Text) :
    ∀ l ∈ leaves.map (Leaf.under segment),
      l.value.isLeaf = true := by
  intro l hMem
  rcases List.mem_map.mp hMem with ⟨inner, hInner, rfl⟩
  exact hLeaves inner hInner

mutual

theorem isLeaf_of_mem_leaves :
    (v : Value) → ∀ l ∈ leaves v, l.value.isLeaf = true
  | .flag => by simp [leaves, isLeaf]
  | .text _ => by simp [leaves, isLeaf]
  | .list items => by
      simp only [leaves]
      split
      · exact isLeaf_of_mem_indexedLeaves 0 items
      · exact isLeaf_of_mem_map_under
          (isLeaf_of_mem_plainLeaves items) []
  | .repeated items => by
      simpa only [leaves] using
        isLeaf_of_mem_plainLeaves items
  | .map entries => by
      simpa only [leaves] using
        isLeaf_of_mem_entryLeaves entries
termination_by structural v => v

theorem isLeaf_of_mem_plainLeaves :
    (items : List Value) →
      ∀ l ∈ plainLeaves items, l.value.isLeaf = true
  | [] => by simp [plainLeaves]
  | item :: rest => by
      intro l hMem
      simp only [plainLeaves, List.mem_append] at hMem
      rcases hMem with hMem | hMem
      · exact isLeaf_of_mem_leaves item l hMem
      · exact isLeaf_of_mem_plainLeaves rest l hMem
termination_by structural items => items

theorem isLeaf_of_mem_indexedLeaves
    (i : Nat) :
    (items : List Value) →
      ∀ l ∈ indexedLeaves i items, l.value.isLeaf = true
  | [] => by simp [indexedLeaves]
  | item :: rest => by
      intro l hMem
      simp only [indexedLeaves, List.mem_append] at hMem
      rcases hMem with hMem | hMem
      · exact isLeaf_of_mem_map_under
          (isLeaf_of_mem_leaves item) _ l hMem
      · exact isLeaf_of_mem_indexedLeaves (i + 1) rest
          l hMem
termination_by structural items => items

theorem isLeaf_of_mem_entryLeaves :
    (entries : List (Text × Value)) →
      ∀ l ∈ entryLeaves entries, l.value.isLeaf = true
  | [] => by simp [entryLeaves]
  | (sub, item) :: rest => by
      intro l hMem
      simp only [entryLeaves, List.mem_append] at hMem
      rcases hMem with hMem | hMem
      · exact isLeaf_of_mem_map_under
          (isLeaf_of_mem_leaves item) sub l hMem
      · exact isLeaf_of_mem_entryLeaves rest l hMem
termination_by structural entries => entries

end

end Value

------------------------------------------------------------
-- Written Pairs
------------------------------------------------------------

/- A pair as it is written between two ampersands. -/
def Pair.piece
    (p : Pair) : Text :=
  match p.value with
  | .text t => escape p.key ++ '=' :: escape t
  | _ => escape p.key

/- The pair that is written for a leaf of a key. -/
def Leaf.pair
    (key : Text)
    (l : Leaf) : Pair :=
  { key := key ++ Key.brackets l.segments
    value := l.value }

/- A segment belongs to the key or to the leaf. -/
theorem Leaf.pair_under
    (key segment : Text)
    (l : Leaf) :
    (l.under segment).pair key =
      l.pair (key ++ '[' :: segment ++ [']']) := by
  simp [Leaf.pair, Leaf.under, Key.brackets_cons]

/- The pieces of leaves under a segment. -/
theorem map_piece_under
    (key segment : Text)
    (leaves : List Leaf) :
    (leaves.map (Leaf.under segment)).map
        (fun l => (l.pair key).piece) =
      leaves.map fun l =>
        (l.pair (key ++ '[' :: segment ++ [']'])).piece := by
  rw [List.map_map]
  apply List.map_congr_left
  intro l _
  simp only [Function.comp_apply, Leaf.pair_under]

/- A bracketed key is written with its segment escaped. -/
theorem bracketed_escape
    (key segment : Text) :
    Value.bracketed (escape key) (escape segment) =
      escape (key ++ '[' :: segment ++ [']']) := by
  simp [Value.bracketed, escape_append, escape_cons,
    escapeChar]

/- The digits of a number are written as they are. -/
theorem escape_ofNat
    (i : Nat) :
    escape (Text.ofNat i) = Text.ofNat i := by
  apply escape_of_plain
  intro c hMem
  have hDigit := Key.isDigit_of_mem_ofNat hMem
  by_contra hEscaped
  have hEscaped : isEscaped c = true := by
    simpa using hEscaped
  rcases eq_of_isEscaped hEscaped with
    rfl | rfl | rfl | rfl | rfl | rfl <;>
  simp at hDigit

namespace Value

mutual

/- A value writes one piece for every leaf. -/
theorem pieces_escape
    (key : Text) :
    (v : Value) →
      pieces (escape key) v =
        (leaves v).map fun l => (l.pair key).piece
  | .flag => by
      simp [pieces, leaves, Leaf.pair, Pair.piece]
  | .text t => by
      simp [pieces, leaves, Leaf.pair, Pair.piece]
  | .list items => by
      have hPlain := plainPieces_escape
        (key ++ '[' :: [] ++ [']']) items
      rw [← bracketed_escape, escape_nil] at hPlain
      have hIndexed := indexedPieces_escape key 0 items
      by_cases hNested : items.any isNested = true
      · simp only [pieces, leaves, if_pos hNested, hIndexed]
      · simp only [pieces, leaves, if_neg hNested, hPlain,
          map_piece_under]
  | .repeated items => by
      simp only [pieces, leaves,
        plainPieces_escape key items]
  | .map entries => by
      simp only [pieces, leaves,
        entryPieces_escape key entries]
termination_by structural v => v

theorem plainPieces_escape
    (key : Text) :
    (items : List Value) →
      plainPieces (escape key) items =
        (plainLeaves items).map fun l => (l.pair key).piece
  | [] => by simp [plainPieces, plainLeaves]
  | item :: rest => by
      simp only [plainPieces, plainLeaves, List.map_append,
        pieces_escape key item, plainPieces_escape key rest]
termination_by structural items => items

theorem indexedPieces_escape
    (key : Text)
    (i : Nat) :
    (items : List Value) →
      indexedPieces (escape key) i items =
        (indexedLeaves i items).map
          fun l => (l.pair key).piece
  | [] => by simp [indexedPieces, indexedLeaves]
  | item :: rest => by
      have hItem := pieces_escape
        (key ++ '[' :: Text.ofNat i ++ [']']) item
      rw [← bracketed_escape, escape_ofNat] at hItem
      simp only [indexedPieces, indexedLeaves,
        List.map_append, map_piece_under, hItem,
        indexedPieces_escape key (i + 1) rest]
termination_by structural items => items

theorem entryPieces_escape
    (key : Text) :
    (entries : List (Text × Value)) →
      entryPieces (escape key) entries =
        (entryLeaves entries).map
          fun l => (l.pair key).piece
  | [] => by simp [entryPieces, entryLeaves]
  | (sub, item) :: rest => by
      have hItem := pieces_escape
        (key ++ '[' :: sub ++ [']']) item
      rw [← bracketed_escape] at hItem
      simp only [entryPieces, entryLeaves, List.map_append,
        map_piece_under, hItem, entryPieces_escape key rest]
termination_by structural entries => entries

end

end Value

------------------------------------------------------------
-- Pairs Read Back
------------------------------------------------------------

/- A written pair does not split a query. -/
theorem not_mem_piece
    (p : Pair) :
    '&' ∉ p.piece := by
  have hEscape : ∀ t, '&' ∉ escape t := fun t =>
    mem_escape (by decide) (by decide) t
  cases hValue : p.value with
  | text t =>
      simp [Pair.piece, hValue, hEscape]
  | flag => simpa [Pair.piece, hValue] using hEscape p.key
  | list items =>
      simpa [Pair.piece, hValue] using hEscape p.key
  | repeated items =>
      simpa [Pair.piece, hValue] using hEscape p.key
  | map entries =>
      simpa [Pair.piece, hValue] using hEscape p.key

/- A written pair is read back. -/
theorem Pair.ofText?_piece
    {p : Pair}
    (hKey : p.key ≠ [])
    (hValue : p.value.isLeaf = true) :
    Pair.ofText? p.piece = some p := by
  rcases p with ⟨key, value⟩
  have hEq : '=' ∉ escape key :=
    mem_escape (by decide) (by decide) key
  have hNonempty : key.isEmpty = false := by
    simpa using hKey
  cases value with
  | flag =>
      simp [Pair.ofText?, Pair.piece,
        Text.splitOnce_eq_none hEq, unescape_escape,
        hNonempty]
  | text t =>
      simp [Pair.ofText?, Pair.piece,
        Text.splitOnce_append (escape key) (escape t) hEq,
        unescape_escape, hNonempty]
  | list items => simp [Value.isLeaf] at hValue
  | repeated items => simp [Value.isLeaf] at hValue
  | map entries => simp [Value.isLeaf] at hValue

/- Written pairs are read back in order. -/
theorem pairs_join_pieces
    {written : List Pair}
    (hKeys : ∀ p ∈ written, p.key ≠ [])
    (hValues : ∀ p ∈ written, p.value.isLeaf = true) :
    pairs (Text.join ['&'] (written.map Pair.piece)) =
      written := by
  by_cases hEmpty : written = []
  · subst hEmpty
    rfl
  · have hSplit :
        Text.splitAll '&'
            (Text.join ['&'] (written.map Pair.piece)) =
          written.map Pair.piece := by
      apply Text.splitAll_join
      · simpa using hEmpty
      · intro piece hMem
        rcases List.mem_map.mp hMem with ⟨p, -, rfl⟩
        exact not_mem_piece p
    rw [pairs, hSplit, List.filterMap_map]
    have hRead : ∀ p ∈ written,
        (Pair.ofText? ∘ Pair.piece) p = some p := fun p hMem =>
      Pair.ofText?_piece (hKeys p hMem) (hValues p hMem)
    rw [List.filterMap_congr hRead]
    exact List.filterMap_some

/- The pairs written for the leaves of parameters. -/
def leafPairs
    (params : Dict Value) : List Pair :=
  params.flatMap fun entry =>
    entry.2.leaves.map (Leaf.pair entry.1)

/- The string of a query is read as one pair per leaf. -/
theorem pairs_render
    (q : Query)
    (hKeys : ∀ entry ∈ q.params, entry.1 ≠ []) :
    pairs q.render = leafPairs q.params := by
  have hPieces :
      (q.params.flatMap fun entry =>
          entry.2.pieces (escape entry.1)) =
        (leafPairs q.params).map Pair.piece := by
    simp only [leafPairs, List.map_flatMap,
      Value.pieces_escape, List.map_map,
      Function.comp_def]
  rw [render, hPieces]
  apply pairs_join_pieces
  · intro p hMem
    rcases List.mem_flatMap.mp hMem with ⟨entry, hEntry, hMem⟩
    rcases List.mem_map.mp hMem with ⟨l, -, rfl⟩
    simp [Leaf.pair, hKeys entry hEntry]
  · intro p hMem
    rcases List.mem_flatMap.mp hMem with ⟨entry, -, hMem⟩
    rcases List.mem_map.mp hMem with ⟨l, hLeaf, rfl⟩
    exact Value.isLeaf_of_mem_leaves entry.2 l hLeaf

end Query

end ComponentLoader
