import Mathlib.Tactic
import Mathlib.Data.Char
import Mathlib.Data.List.Lex
import Mathlib.Data.List.Sort
import ComponentLoader.Files.Listing
import ComponentLoader.Proofs.Dict
import ComponentLoader.Proofs.Files.Contents

/-
  Stores whose files have names that can be written in a
  path.  All names that a listing comes up with can be.

  Main declarations:
    * `Files.perm_sortNamed`
    * `Files.Tree.Named`
    * `Files.Tree.named_at?`
    * `Files.Tree.isName_of_mem_listing`
    * `Files.Store.WellFormed`
-/

------------------------------------------------------------
-- Sorted Names
------------------------------------------------------------

namespace ComponentLoader

namespace Files

theorem nameLe_iff
    {a b : Text} :
    nameLe a b = true ↔ a = b ∨ a < b := by
  induction a generalizing b with
  | nil => cases b <;> simp [nameLe]
  | cons c cs ih =>
      cases b with
      | nil => simp [nameLe]
      | cons d ds =>
          have hLess : c.toNat < d.toNat ↔ c < d := Iff.rfl
          have hMore : d.toNat < c.toNat ↔ d < c := Iff.rfl
          rw [List.cons_lt_cons_iff]
          simp only [nameLe, hLess, hMore]
          rcases lt_trichotomy c d with hLt | rfl | hGt
          · simp [hLt]
          · simp [ih]
          · simp [hGt, hGt.not_gt, hGt.ne']

section Sorting

variable {α : Type}

/- Things are sorted by their names. -/
theorem sortNamed_eq
    (entries : List (Text × α)) :
    sortNamed entries =
      entries.insertionSort fun x y => x.1 ≤ y.1 := by
  have hInsert :
      ∀ (entry : Text × α) (sorted : List (Text × α)),
        insertNamed entry sorted =
          sorted.orderedInsert
            (fun x y => x.1 ≤ y.1) entry := by
    intro entry sorted
    induction sorted with
    | nil => rfl
    | cons first rest ih =>
        rw [insertNamed, List.orderedInsert_cons, ih]
        simp only [nameLe_iff, le_iff_eq_or_lt]
  induction entries with
  | nil => rfl
  | cons entry rest ih =>
      rw [List.insertionSort_cons, ← ih, ← hInsert]
      rfl

theorem perm_sortNamed
    (entries : List (Text × α)) :
    (sortNamed entries).Perm entries := by
  rw [sortNamed_eq]
  exact List.perm_insertionSort _ _

end Sorting

------------------------------------------------------------
-- Named Trees
------------------------------------------------------------

namespace Tree

/- A tree in which everything has the name of a file. -/
inductive Named : Tree → Prop where
  | file
      (content : Option Text) :
      Named (.file content)
  | dir
      {children : List (Text × Tree)}
      (hNames : ∀ entry ∈ children, Path.IsName entry.1)
      (hBelow : ∀ entry ∈ children, Named entry.2) :
      Named (.dir children)

theorem named_at?
    {t below : Tree}
    (hNamed : t.Named)
    {names : List Text}
    (hAt : t.at? names = some below) :
    below.Named := by
  induction names generalizing t with
  | nil =>
      cases hAt
      exact hNamed
  | cons name names ih =>
      rw [at?_cons] at hAt
      cases hNamed with
      | file content => cases hAt
      | @dir children hNames hBelow =>
          rw [child?] at hAt
          cases hGet : Dict.get? children name with
          | none =>
              rw [hGet] at hAt
              cases hAt
          | some child =>
              rw [hGet, Option.bind_some] at hAt
              exact ih (hBelow _ (Dict.mem_of_get? hGet)) hAt

------------------------------------------------------------
-- Listings
------------------------------------------------------------

theorem listings_eq_map
    (children : List (Text × Tree)) :
    listings children =
      children.map fun entry =>
        (entry.1, entry.2.listing) := by
  induction children with
  | nil => rfl
  | cons entry rest ih =>
      rw [listings, ih, List.map_cons, entryListing]

/- A listing consists of those of the things in it. -/
theorem listing_dir
    (children : List (Text × Tree)) :
    (dir children).listing =
      (sortNamed (children.map fun entry =>
        (entry.1, entry.2.listing))).flatMap below := by
  rw [listing, listings_eq_map]

theorem mem_below_iff
    {entry : Text × List (List Text)}
    {names : List Text} :
    names ∈ below entry ↔
      ∃ rest ∈ entry.2, entry.1 :: rest = names := by
  rw [below, List.mem_map]

/- Names that lead to a file below a directory. -/
theorem mem_listing_dir
    {children : List (Text × Tree)}
    {names : List Text} :
    names ∈ (dir children).listing ↔
      ∃ entry ∈ children, ∃ rest ∈ entry.2.listing,
        entry.1 :: rest = names := by
  simp only [listing_dir, List.mem_flatMap,
    (perm_sortNamed _).mem_iff, List.mem_map,
    mem_below_iff, exists_exists_and_eq_and]

/- No directory is a file of its own listing. -/
theorem ne_nil_of_mem_listing
    {children : List (Text × Tree)}
    {names : List Text}
    (hMem : names ∈ (dir children).listing) :
    names ≠ [] := by
  rcases mem_listing_dir.mp hMem with ⟨entry, -, rest, -, rfl⟩
  exact List.cons_ne_nil _ _

theorem isName_of_mem_listing
    {t : Tree}
    (hNamed : t.Named)
    {names : List Text}
    (hMem : names ∈ t.listing)
    {name : Text}
    (hName : name ∈ names) :
    Path.IsName name := by
  induction hNamed generalizing names with
  | file content =>
      rw [listing, List.mem_singleton] at hMem
      rw [hMem] at hName
      cases hName
  | dir hNames hBelow ih =>
      rcases mem_listing_dir.mp hMem with
        ⟨entry, hEntry, rest, hRest, rfl⟩
      rcases List.mem_cons.mp hName with rfl | hName
      · exact hNames entry hEntry
      · exact ih entry hEntry hRest hName

end Tree

------------------------------------------------------------
-- Well-Formed Stores
------------------------------------------------------------

/-
  A store in which everything has the name of a file, and
  with a directory that is the current one.
-/
structure Store.WellFormed
    (s : Store) : Prop where
  root : s.root.Named
  current : ∀ name ∈ s.current, Path.IsName name
  here : s.IsDirAt s.current

end Files

end ComponentLoader
