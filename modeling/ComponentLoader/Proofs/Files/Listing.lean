import Mathlib.Tactic
import ComponentLoader.Proofs.Files.Named
import ComponentLoader.Proofs.Text.Order

/-
  What a listing of a directory consists of, in which order,
  and where it is found in a store.

  Directories are listed where their names stand among the
  others, so that the files are in the order of their names
  all the way down, compared name by name.

  Main declarations:
    * `Files.NamesLt`
    * `Files.Tree.Distinct`
    * `Files.Tree.mem_listing_iff`
    * `Files.Tree.pairwise_listing`
    * `Files.Store.find?_join`
-/

------------------------------------------------------------
-- Order
------------------------------------------------------------

namespace ComponentLoader

namespace Files

/-
  Whether names come before others: the first names that
  differ do, byte by byte, or there are no more of them.
-/
def NamesLt
    (names others : List Text) : Prop :=
  names.map Utf8.encode < others.map Utf8.encode

theorem namesLt_cons_iff
    {name other : Text}
    {names others : List Text} :
    NamesLt (name :: names) (other :: others) ↔
      Utf8.encode name < Utf8.encode other ∨
        Utf8.encode name = Utf8.encode other ∧
          NamesLt names others := by
  unfold NamesLt
  rw [List.map_cons, List.map_cons, List.cons_lt_cons_iff]

/- No names come before themselves. -/
theorem not_namesLt_self
    (names : List Text) :
    ¬ NamesLt names names := by
  induction names with
  | nil => exact List.not_lt_nil []
  | cons name names ih =>
      rw [namesLt_cons_iff, not_or, not_and]
      exact ⟨List.lt_irrefl _, fun _ => ih⟩

section Sorting

variable {α : Type}

/- Distinct names are in strict order, byte by byte. -/
theorem pairwise_sortNamed
    {entries : List (Text × α)}
    (hDistinct : (Dict.keys entries).Nodup) :
    (sortNamed entries).Pairwise fun x y =>
      Utf8.encode x.1 < Utf8.encode y.1 := by
  let r := fun x y : Text × α => x.1 ≤ y.1
  have hTotal : Std.Total r :=
    ⟨fun x y => le_total x.1 y.1⟩
  have hTrans : IsTrans (Text × α) r :=
    ⟨fun _ _ _ => le_trans⟩
  have hOrder : (sortNamed entries).Pairwise r := by
    rw [sortNamed_eq]
    exact List.pairwise_insertionSort r entries
  have hNe : (sortNamed entries).Pairwise fun x y =>
      x.1 ≠ y.1 := by
    have hKeys := ((perm_sortNamed entries).map
      Prod.fst).nodup_iff.mpr hDistinct
    exact List.pairwise_map.mp hKeys
  exact (hOrder.and hNe).imp fun hBoth =>
    Utf8.encode_lt_of_lt (lt_of_le_of_ne hBoth.1 hBoth.2)

end Sorting

------------------------------------------------------------
-- Listings
------------------------------------------------------------

namespace Tree

/- A tree in which no two things have one place. -/
inductive Distinct : Tree → Prop where
  | file
      (content : Option Text) :
      Distinct (.file content)
  | dir
      {children : List (Text × Tree)}
      (hNames : (Dict.keys children).Nodup)
      (hBelow : ∀ entry ∈ children, Distinct entry.2) :
      Distinct (.dir children)

/- A directory of such things is one itself. -/
theorem named_and_distinct_dir
    {children : List (Text × Tree)}
    (hNames : ∀ entry ∈ children, Path.IsName entry.1)
    (hOnce : (Dict.keys children).Nodup)
    (hBelow : ∀ entry ∈ children,
      entry.2.Named ∧ entry.2.Distinct) :
    (dir children).Named ∧ (dir children).Distinct :=
  ⟨.dir hNames fun entry hEntry =>
      (hBelow entry hEntry).1,
    .dir hOnce fun entry hEntry =>
      (hBelow entry hEntry).2⟩

theorem distinct_at?
    {t below : Tree}
    (hDistinct : t.Distinct)
    {names : List Text}
    (hAt : t.at? names = some below) :
    below.Distinct := by
  induction names generalizing t with
  | nil =>
      cases hAt
      exact hDistinct
  | cons name names ih =>
      rw [at?_cons] at hAt
      rcases Option.bind_eq_some_iff.mp hAt with
        ⟨child, hChild, hRest⟩
      cases hDistinct with
      | file content => cases hChild
      | dir hNames hBelow =>
          exact ih (hBelow _ (Dict.mem_of_get? hChild)) hRest

/- The names that lead to a file are those of a listing. -/
theorem mem_listing_iff
    {t : Tree}
    (hDistinct : t.Distinct)
    {names : List Text} :
    names ∈ t.listing ↔
      ∃ content, t.at? names = some (.file content) := by
  induction hDistinct generalizing names with
  | file content =>
      cases names with
      | nil => simp [listing, at?]
      | cons name names => simp [listing, at?, child?]
  | @dir children hNames hBelow ih =>
      rw [mem_listing_dir]
      constructor
      · rintro ⟨entry, hEntry, rest, hRest, rfl⟩
        rcases (ih entry hEntry).mp hRest with
          ⟨content, hAt⟩
        refine ⟨content, ?_⟩
        rw [at?_cons, child?,
          Dict.get?_of_mem hNames hEntry, Option.bind_some,
          hAt]
      · rintro ⟨content, hAt⟩
        cases names with
        | nil => cases hAt
        | cons name rest =>
            rw [at?_cons, child?] at hAt
            rcases Option.bind_eq_some_iff.mp hAt with
              ⟨t, hGet, hRest⟩
            have hEntry := Dict.mem_of_get? hGet
            exact ⟨_, hEntry, rest,
              (ih _ hEntry).mpr ⟨content, hRest⟩, rfl⟩

/- The files of a listing are in strict order. -/
theorem pairwise_listing
    {t : Tree}
    (hDistinct : t.Distinct) :
    t.listing.Pairwise NamesLt := by
  induction hDistinct with
  | file content =>
      rw [listing]
      exact List.pairwise_singleton _ _
  | @dir children hNames hBelow ih =>
      have hKeys :
          Dict.keys (children.map fun entry =>
            (entry.1, entry.2.listing)) =
              Dict.keys children := by
        rw [Dict.keys, List.map_map]
        rfl
      have hSorted := pairwise_sortNamed (hKeys ▸ hNames)
      rw [listing_dir, List.pairwise_flatMap]
      constructor
      · -- within one name, the order is that of the rest
        intro pair hPair
        rcases List.mem_map.mp
            ((perm_sortNamed _).mem_iff.mp hPair) with
          ⟨entry, hEntry, rfl⟩
        rw [below, List.pairwise_map]
        refine (ih entry hEntry).imp fun hLess => ?_
        exact namesLt_cons_iff.mpr (Or.inr ⟨rfl, hLess⟩)
      · refine hSorted.imp fun hLess => ?_
        intro names hMem others hOthers
        rcases mem_below_iff.mp hMem with ⟨_, -, rfl⟩
        rcases mem_below_iff.mp hOthers with ⟨_, -, rfl⟩
        exact namesLt_cons_iff.mpr (Or.inl hLess)

end Tree

------------------------------------------------------------
-- Ways Below A Directory
------------------------------------------------------------

namespace Store

variable {s : Store}

/- What stands where pieces of a path lead to. -/
def reached?
    (s : Store)
    (place pieces : List Text) : Option Tree :=
  (s.walk place pieces).toOption.bind s.root.at?

theorem find?_eq_reached?
    {path : Text}
    (hSome : path ≠ []) :
    s.find? path =
      s.reached? (s.start path) (Text.splitAll '/' path) := by
  unfold find? locate reached?
  rw [if_neg (by simpa using hSome)]
  cases s.walk (s.start path) (Text.splitAll '/' path) with
  | ok place => rfl
  | error fault => rfl

/- A name leads to what a directory holds under it. -/
theorem reached?_concat_name
    {name : Text}
    (hName : Path.IsName name)
    (place pieces : List Text) :
    s.reached? place (pieces ++ [name]) =
      (s.reached? place pieces).bind fun t =>
        t.child? name := by
  unfold reached?
  rw [walk_append]
  cases s.walk place pieces with
  | error fault => rfl
  | ok next =>
      rw [Except.bind, walk_singleton, step]
      change _ = (s.root.at? next).bind _
      cases hAt : s.root.at? next with
      | none => rfl
      | some t =>
          cases t with
          | file content => rfl
          | dir children =>
              have hChild :
                  s.root.at? (next ++ [name]) =
                    Dict.get? children name := by
                rw [Tree.at?_append, hAt, Option.bind_some,
                  Tree.at?_cons, Tree.child?]
                exact Option.bind_fun_some _
              simp only [hName.2.1, Bool.false_eq_true,
                if_false, if_neg hName.2.2,
                Option.bind_some, Tree.child?]
              by_cases hThere :
                  Dict.contains children name = true
              · rw [if_pos hThere]
                exact hChild
              · rw [if_neg hThere]
                rw [Dict.contains,
                  Option.not_isSome_iff_eq_none] at hThere
                rw [hThere]
                rfl

/- A slash at the end leads to directories alone. -/
theorem reached?_concat_nil
    (place pieces : List Text) :
    s.reached? place (pieces ++ [[]]) =
      (s.reached? place pieces).filter Tree.isDir := by
  unfold reached?
  rw [walk_append]
  cases s.walk place pieces with
  | error fault => rfl
  | ok next =>
      rw [Except.bind, walk_singleton, step]
      change _ = (s.root.at? next).filter Tree.isDir
      cases hAt : s.root.at? next with
      | none => rfl
      | some t =>
          cases t with
          | file content => rfl
          | dir children => exact hAt

/- What is found below a path is in what the path leads to. -/
theorem find?_join
    {dir name : Text}
    (hSome : dir ≠ [])
    (hName : Path.IsName name) :
    s.find? (Path.join dir name) =
      (s.find? dir).bind fun t => t.child? name := by
  have hRelative := Path.isAbsolute_of_isName hName
  have hStart :
      s.start (Path.join dir name) = s.start dir :=
    start_congr (Path.isAbsolute_join hRelative)
  have hPiece := Text.splitAll_of_not_mem hName.1
  have hEmpty : dir.isEmpty = false := by simpa using hSome
  cases hEnd : Text.endsWith '/' dir with
  | false =>
      have hJoin :
          Path.join dir name = dir ++ '/' :: name := by
        simp [Path.join, hRelative, hEmpty, hEnd]
      rw [find?_eq_reached? (by simp [hJoin]),
        find?_eq_reached? hSome, hStart, hJoin,
        Text.splitAll_append_sep, hPiece,
        reached?_concat_name hName]
  | true =>
      rcases Text.endsWith_iff.mp hEnd with ⟨before, rfl⟩
      have hJoin :
          Path.join (before ++ ['/']) name =
            before ++ '/' :: name := by
        simp [Path.join, hRelative, hEnd]
      rw [find?_eq_reached? (by simp [hJoin]),
        find?_eq_reached? hSome, hStart, hJoin,
        Text.splitAll_append_sep,
        Text.splitAll_append_sep, hPiece, Text.splitAll,
        reached?_concat_name hName, reached?_concat_nil]
      -- there is nothing in a file either way
      cases s.reached? (s.start (before ++ ['/']))
          (Text.splitAll '/' before) with
      | none => rfl
      | some t =>
          cases t with
          | file content => rfl
          | dir children => rfl

end Store

end Files

end ComponentLoader
