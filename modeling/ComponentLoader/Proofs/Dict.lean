import Mathlib.Tactic
import ComponentLoader.Dict

/-
  Dictionaries under alteration: what happens to the keys,
  to the entries, and to an entry that is new.

  Main declarations:
    * `keys_alter`
    * `mem_alter`
    * `alter_of_not_mem`
    * `alter_append_self`
    * `ofEntries_of_nodup`
    * `keys_merge`
    * `keys_foldl_alter`
    * `keys_ofEntries`
    * `ext_of_keys`
    * `get?_merge`
    * `get?_ofEntries`
    * `get?_erase`
    * `merge_assoc`
    * `merge_self`
-/

------------------------------------------------------------
-- Keys
------------------------------------------------------------

namespace ComponentLoader

namespace Dict

variable {α : Type}

/- Altering is writing, as far as the keys go. -/
theorem keys_alter
    (key : Text)
    (f : Option α → α)
    (d : Dict α) :
    keys (alter key f d) =
      if key ∈ keys d then keys d else keys d ++ [key] := by
  induction d with
  | nil => simp [alter, keys]
  | cons entry rest ih =>
      rcases entry with ⟨k, v⟩
      by_cases hKey : k = key
      · simp [alter, keys, hKey]
      · have hKey' : ¬ key = k := fun hEq => hKey hEq.symm
        simp only [keys] at ih
        by_cases hMem : key ∈ rest.map Prod.fst
        · simp [alter, keys, hKey, hKey', ih, hMem]
        · simp [alter, keys, hKey, hKey', ih, hMem]

/- Altering keeps the keys distinct. -/
theorem nodup_keys_alter
    {key : Text}
    {f : Option α → α}
    {d : Dict α}
    (hDistinct : (keys d).Nodup) :
    (keys (alter key f d)).Nodup := by
  rw [keys_alter]
  split
  · exact hDistinct
  · next hNew =>
      rw [List.nodup_append]
      refine ⟨hDistinct, by simp, ?_⟩
      intro a hMem b hKey
      rw [List.mem_singleton] at hKey
      rintro rfl
      exact hNew (hKey ▸ hMem)

/- A key that is new is new to each entry. -/
theorem not_mem_keys_cons_iff
    {key k : Text}
    {v : α}
    {rest : Dict α} :
    key ∉ keys ((k, v) :: rest) ↔
      k ≠ key ∧ key ∉ keys rest := by
  simp only [keys, List.map_cons, List.mem_cons, not_or,
    ne_comm]

/- A key that comes later is not among the first ones. -/
theorem not_mem_keys_of_nodup
    {d rest : Dict α}
    {entry : Text × α}
    (hDistinct : (keys (d ++ entry :: rest)).Nodup) :
    entry.1 ∉ keys d := by
  simp only [keys, List.map_append, List.map_cons,
    List.nodup_append] at hDistinct
  intro hMem
  exact hDistinct.2.2 entry.1 hMem entry.1 (by simp) rfl

/- The first key stays the first. -/
theorem head?_keys_alter
    {key : Text}
    {f : Option α → α}
    {d : Dict α}
    (hSome : d ≠ []) :
    (keys (alter key f d)).head? = (keys d).head? := by
  rw [keys_alter]
  split
  · rfl
  · cases d with
    | nil => exact absurd rfl hSome
    | cons entry rest => rfl

/- A key is among the altered ones if it was or is new. -/
theorem mem_keys_alter
    {key k : Text}
    {f : Option α → α}
    {d : Dict α}
    (hMem : k ∈ keys (alter key f d)) :
    k ∈ keys d ∨ k = key := by
  rw [keys_alter] at hMem
  split at hMem
  · exact Or.inl hMem
  · simpa using hMem

------------------------------------------------------------
-- Entries
------------------------------------------------------------

/- An altered entry was there before or is the new one. -/
theorem mem_alter
    {key : Text}
    {f : Option α → α}
    {d : Dict α}
    {entry : Text × α}
    (hMem : entry ∈ alter key f d) :
    entry ∈ d ∨
      (entry.1 = key ∧
        (entry.2 = f none ∨
          ∃ v, (key, v) ∈ d ∧ entry.2 = f (some v))) := by
  induction d with
  | nil =>
      have hEq : entry = (key, f none) := by
        simpa [alter] using hMem
      exact Or.inr ⟨by rw [hEq], Or.inl (by rw [hEq])⟩
  | cons first rest ih =>
      rcases first with ⟨k, v⟩
      by_cases hKey : k = key
      · subst hKey
        simp only [alter, if_true, List.mem_cons] at hMem
        rcases hMem with rfl | hMem
        · exact Or.inr
            ⟨rfl, Or.inr ⟨v, by simp, rfl⟩⟩
        · exact Or.inl (List.mem_cons_of_mem _ hMem)
      · simp only [alter, if_neg hKey, List.mem_cons] at hMem
        rcases hMem with rfl | hMem
        · exact Or.inl (by simp)
        · rcases ih hMem with hOld | ⟨hName, hNew⟩
          · exact Or.inl (List.mem_cons_of_mem _ hOld)
          · refine Or.inr ⟨hName, ?_⟩
            rcases hNew with hNone | ⟨old, hOld, hValue⟩
            · exact Or.inl hNone
            · exact Or.inr
                ⟨old, List.mem_cons_of_mem _ hOld, hValue⟩

/- A new key goes to the end. -/
theorem alter_of_not_mem
    {key : Text}
    {d : Dict α}
    (hNew : key ∉ keys d)
    (f : Option α → α) :
    alter key f d = d ++ [(key, f none)] := by
  induction d with
  | nil => rfl
  | cons entry rest ih =>
      rcases entry with ⟨k, v⟩
      rw [not_mem_keys_cons_iff] at hNew
      simp [alter, hNew.1, ih hNew.2]

/- The last entry can be altered in place. -/
theorem alter_append_self
    {key : Text}
    {d : Dict α}
    (hNew : key ∉ keys d)
    (f : Option α → α)
    (v : α) :
    alter key f (d ++ [(key, v)]) =
      d ++ [(key, f (some v))] := by
  induction d with
  | nil => simp [alter]
  | cons entry rest ih =>
      rcases entry with ⟨k, w⟩
      rw [not_mem_keys_cons_iff] at hNew
      simp [alter, hNew.1, ih hNew.2]

theorem merge_cons
    (d : Dict α)
    (key : Text)
    (v : α)
    (rest : Dict α) :
    merge d ((key, v) :: rest) =
      merge (insert d key v) rest :=
  rfl

/- Entries with distinct keys are a dictionary as they are. -/
theorem merge_of_nodup
    {d entries : Dict α}
    (hDistinct : (keys (d ++ entries)).Nodup) :
    merge d entries = d ++ entries := by
  induction entries generalizing d with
  | nil => simp [merge]
  | cons entry rest ih =>
      rcases entry with ⟨k, v⟩
      have hStep : insert d k v = d ++ [(k, v)] :=
        alter_of_not_mem
          (not_mem_keys_of_nodup hDistinct) _
      have hRest : (keys (d ++ [(k, v)] ++ rest)).Nodup := by
        simpa using hDistinct
      have hMerge := ih hRest
      simp only [merge] at hMerge ⊢
      rw [List.foldl_cons, hStep, hMerge]
      simp

theorem ofEntries_of_nodup
    {entries : Dict α}
    (hDistinct : (keys entries).Nodup) :
    ofEntries entries = entries := by
  have hMerge := merge_of_nodup (d := []) hDistinct
  simpa [ofEntries] using hMerge

theorem mem_keys_insert
    {d : Dict α}
    {key k : Text}
    {value : α} :
    k ∈ keys (insert d key value) ↔
      k ∈ keys d ∨ k = key := by
  rw [keys_insert]
  split
  · next hFound =>
      constructor
      · exact Or.inl
      · rintro (hMem | rfl)
        · exact hMem
        · exact hFound
  · simp

/- A key that was written is there. -/
theorem mem_keys_merge
    {d entries : Dict α}
    {key : Text}
    (hMem : key ∈ keys d ∨ key ∈ keys entries) :
    key ∈ keys (merge d entries) := by
  induction entries generalizing d with
  | nil => simpa [merge, keys] using hMem
  | cons entry rest ih =>
      have hStep :
          key ∈ keys (insert d entry.1 entry.2) ∨
            key ∈ keys rest := by
        rw [mem_keys_insert]
        simp only [keys, List.map_cons, List.mem_cons]
          at hMem ⊢
        tauto
      exact ih hStep

/- Merging keeps the keys and adds the new ones in order. -/
theorem keys_merge
    {d entries : Dict α}
    (hDistinct : (keys entries).Nodup) :
    keys (merge d entries) =
      keys d ++ (keys entries).filter (· ∉ keys d) := by
  induction entries generalizing d with
  | nil => simp [merge, keys]
  | cons entry rest ih =>
      rcases entry with ⟨k, v⟩
      have hCons : keys ((k, v) :: rest) = k :: keys rest :=
        rfl
      rw [hCons, List.nodup_cons] at hDistinct
      rw [merge_cons, ih hDistinct.2, keys_insert, hCons]
      by_cases hMem : k ∈ keys d
      · simp [hMem]
      · have hRest :
            (keys rest).filter (· ∉ keys d ++ [k]) =
              (keys rest).filter (· ∉ keys d) := by
          apply List.filter_congr
          intro key hKey
          have hOther : key ≠ k := by
            rintro rfl
            exact hDistinct.1 hKey
          simp [hOther]
        rw [if_neg hMem, hRest,
          List.filter_cons_of_pos (by simpa using hMem)]
        simp

theorem get?_of_not_mem
    {d : Dict α}
    {key : Text}
    (hNew : key ∉ keys d) :
    get? d key = none := by
  induction d with
  | nil => rfl
  | cons entry rest ih =>
      rcases entry with ⟨k, v⟩
      rw [not_mem_keys_cons_iff] at hNew
      simp [get?, hNew.1, ih hNew.2]

/- A value that is read is the one of an entry. -/
theorem mem_of_get?
    {d : Dict α}
    {key : Text}
    {value : α}
    (hGet : get? d key = some value) :
    (key, value) ∈ d := by
  induction d with
  | nil => cases hGet
  | cons entry rest ih =>
      rcases entry with ⟨k, v⟩
      unfold get? at hGet
      split at hGet
      · next hKey =>
          cases hGet
          rw [hKey]
          exact List.mem_cons_self
      · exact List.mem_cons_of_mem _ (ih hGet)

/- With distinct keys, the value of an entry is read. -/
theorem get?_of_mem
    {d : Dict α}
    (hDistinct : (keys d).Nodup)
    {entry : Text × α}
    (hMem : entry ∈ d) :
    get? d entry.1 = some entry.2 := by
  induction d with
  | nil => cases hMem
  | cons first rest ih =>
      rcases first with ⟨k, v⟩
      rcases List.nodup_cons.mp hDistinct with
        ⟨hNew, hRest⟩
      rcases List.mem_cons.mp hMem with rfl | hMem
      · simp [get?]
      · have hKey : ¬ k = entry.1 := by
          intro hEq
          have hKeys : entry.1 ∈ keys rest :=
            List.mem_map_of_mem hMem
          exact hNew (hEq ▸ hKeys)
        rw [get?, if_neg hKey, ih hRest hMem]

/- What is merged in takes the place of what was there. -/
theorem get?_merge
    {d entries : Dict α}
    (hDistinct : (keys entries).Nodup)
    (key : Text) :
    get? (merge d entries) key =
      (get? entries key).or (get? d key) := by
  induction entries generalizing d with
  | nil => rfl
  | cons entry rest ih =>
      rcases entry with ⟨k, v⟩
      rcases List.nodup_cons.mp hDistinct with
        ⟨hNew, hRest⟩
      rw [merge_cons, ih hRest]
      by_cases hKey : k = key
      · subst hKey
        rw [get?_of_not_mem hNew, insert, get?_alter_self]
        simp [get?]
      · have hOther : key ≠ k := fun hEq => hKey hEq.symm
        rw [insert, get?_alter_other k key _ d hOther]
        simp [get?, hKey]

------------------------------------------------------------
-- The Last Of Several Values
------------------------------------------------------------

theorem get?_append
    (d entries : Dict α)
    (key : Text) :
    get? (d ++ entries) key =
      (get? d key).or (get? entries key) := by
  induction d with
  | nil => rfl
  | cons entry rest ih =>
      rcases entry with ⟨k, v⟩
      by_cases hKey : k = key
      · simp [get?, hKey]
      · simp [get?, hKey, ih]

/-
  What is merged in may write a key several times; the
  last value stays.
-/
theorem get?_merge_reverse
    (d entries : Dict α)
    (key : Text) :
    get? (merge d entries) key =
      (get? entries.reverse key).or (get? d key) := by
  induction entries generalizing d with
  | nil => rfl
  | cons entry rest ih =>
      rcases entry with ⟨k, v⟩
      have hFirst :
          get? (insert d k v) key =
            (get? [(k, v)] key).or (get? d key) := by
        by_cases hKey : k = key
        · subst hKey
          rw [insert, get?_alter_self]
          simp [get?]
        · have hOther : key ≠ k := fun hEq => hKey hEq.symm
          rw [insert, get?_alter_other k key _ d hOther]
          simp [get?, hKey]
      rw [merge_cons, ih, hFirst, List.reverse_cons,
        get?_append, Option.or_assoc]

theorem get?_ofEntries
    (entries : Dict α)
    (key : Text) :
    get? (ofEntries entries) key =
      get? entries.reverse key := by
  unfold ofEntries
  rw [get?_merge_reverse, get?, Option.or_none]

/- Keys that are asked for are found among those wanted. -/
theorem get?_filter
    {wanted : Text → Bool}
    {key : Text}
    (hWanted : wanted key = true)
    (d : Dict α) :
    get? (d.filter fun entry => wanted entry.1) key =
      get? d key := by
  induction d with
  | nil => rfl
  | cons entry rest ih =>
      rcases entry with ⟨k, v⟩
      by_cases hKey : k = key
      · subst hKey
        simp [hWanted, get?]
      · by_cases hKept : wanted k = true
        · simp [hKept, get?, hKey, ih]
        · simp [hKept, get?, hKey, ih]

theorem get?_erase_other
    {key other : Text}
    (hOther : other ≠ key)
    (d : Dict α) :
    get? (erase d key) other = get? d other := by
  induction d with
  | nil => rfl
  | cons entry rest ih =>
      rcases entry with ⟨k, v⟩
      by_cases hKey : k = key
      · subst hKey
        simp [erase, get?, Ne.symm hOther]
      · simp [erase, get?, hKey, ih]

------------------------------------------------------------
-- Keys That Are Removed
------------------------------------------------------------

theorem keys_erase
    (d : Dict α)
    (key : Text) :
    keys (erase d key) = (keys d).erase key := by
  induction d with
  | nil => rfl
  | cons entry rest ih =>
      rcases entry with ⟨k, v⟩
      by_cases hKey : k = key
      · subst hKey
        simp [erase, keys]
      · have hRest :
            (erase rest key).map Prod.fst =
              (rest.map Prod.fst).erase key := ih
        simp [erase, keys, hKey, hRest]

theorem nodup_keys_erase
    {d : Dict α}
    (hDistinct : (keys d).Nodup)
    (key : Text) :
    (keys (erase d key)).Nodup := by
  rw [keys_erase]
  exact hDistinct.erase key

/- A key that is removed is gone; no other one is. -/
theorem get?_erase
    {d : Dict α}
    (hDistinct : (keys d).Nodup)
    (key other : Text) :
    get? (erase d key) other =
      if other = key then none else get? d other := by
  split
  · next hSame =>
      apply get?_of_not_mem
      rw [hSame, keys_erase]
      exact hDistinct.not_mem_erase
  · next hOther => exact get?_erase_other hOther d

/- Merging keeps the keys distinct, whatever is merged in. -/
theorem nodup_keys_merge
    {d : Dict α}
    (hDistinct : (keys d).Nodup)
    (entries : Dict α) :
    (keys (merge d entries)).Nodup := by
  induction entries generalizing d with
  | nil => exact hDistinct
  | cons entry rest ih =>
      rw [merge_cons]
      exact ih (nodup_keys_alter hDistinct)

theorem nodup_keys_ofEntries
    (entries : Dict α) :
    (keys (ofEntries entries)).Nodup := by
  apply nodup_keys_merge
  exact List.nodup_nil

------------------------------------------------------------
-- Merging Twice
------------------------------------------------------------

/- Of two values written to a key the second stays. -/
theorem insert_insert_self
    (d : Dict α)
    (key : Text)
    (v w : α) :
    insert (insert d key v) key w = insert d key w := by
  unfold insert
  induction d with
  | nil => simp [alter]
  | cons entry rest ih =>
      rcases entry with ⟨k, old⟩
      by_cases hKey : k = key
      · simp [alter, hKey]
      · simp [alter, hKey, ih]

/- A key that is there keeps its place whenever written. -/
theorem insert_insert_other
    {d : Dict α}
    {key other : Text}
    (hMem : key ∈ keys d)
    (hOther : other ≠ key)
    (v w : α) :
    insert (insert d other w) key v =
      insert (insert d key v) other w := by
  induction d with
  | nil => exact absurd hMem (by simp [keys])
  | cons entry rest ih =>
      rcases entry with ⟨k, old⟩
      unfold insert at ih ⊢
      by_cases hKey : k = key
      · subst hKey
        simp [alter, Ne.symm hOther]
      · have hRest : key ∈ keys rest := by
          simp only [keys, List.map_cons,
            List.mem_cons] at hMem
          rcases hMem with hEq | hRest
          · exact absurd hEq.symm hKey
          · exact hRest
        by_cases hSame : k = other
        · subst hSame
          simp [alter, hKey]
        · simp [alter, hKey, hSame, ih hRest]

/- A key that others do not write can be written first. -/
theorem insert_merge
    {d entries : Dict α}
    {key : Text}
    (hMem : key ∈ keys d)
    (hNew : key ∉ keys entries)
    (v : α) :
    insert (merge d entries) key v =
      merge (insert d key v) entries := by
  induction entries generalizing d with
  | nil => rfl
  | cons entry rest ih =>
      rcases entry with ⟨k, w⟩
      simp only [keys, List.map_cons, List.mem_cons,
        not_or] at hNew
      rcases hNew with ⟨hKey, hRest⟩
      have hThere : key ∈ keys (insert d k w) :=
        mem_keys_insert.mpr (Or.inl hMem)
      rw [merge_cons, merge_cons, ih hThere hRest,
        insert_insert_other hMem (Ne.symm hKey)]

/- Merging in one more entry is writing it afterwards. -/
theorem merge_insert
    {entries : Dict α}
    (hDistinct : (keys entries).Nodup)
    (d : Dict α)
    (key : Text)
    (v : α) :
    merge d (insert entries key v) =
      insert (merge d entries) key v := by
  induction entries generalizing d with
  | nil => rfl
  | cons entry rest ih =>
      rcases entry with ⟨k, w⟩
      rcases List.nodup_cons.mp hDistinct with
        ⟨hNew, hRest⟩
      by_cases hKey : k = key
      · subst hKey
        have hThere : k ∈ keys (insert d k w) :=
          mem_keys_insert.mpr (Or.inr rfl)
        have hFirst : insert ((k, w) :: rest) k v =
            (k, v) :: rest := by
          simp [insert, alter]
        rw [hFirst, merge_cons, merge_cons,
          insert_merge hThere hNew, insert_insert_self]
      · have hLater : insert ((k, w) :: rest) key v =
            (k, w) :: insert rest key v := by
          simp [insert, alter, hKey]
        rw [hLater, merge_cons, merge_cons, ih hRest]

/-
  Merging is associative, also in the order of keys, if
  what is merged in first writes no key twice.
-/
theorem merge_assoc
    {entries : Dict α}
    (hDistinct : (keys entries).Nodup)
    (d more : Dict α) :
    merge (merge d entries) more =
      merge d (merge entries more) := by
  induction more generalizing entries with
  | nil => rfl
  | cons entry rest ih =>
      rcases entry with ⟨k, v⟩
      have hStill : (keys (insert entries k v)).Nodup :=
        nodup_keys_alter hDistinct
      rw [merge_cons, merge_cons, ← ih hStill,
        merge_insert hDistinct]

/- What is there already changes nothing. -/
theorem insert_of_get?
    {d : Dict α}
    {key : Text}
    {value : α}
    (hGet : get? d key = some value) :
    insert d key value = d := by
  unfold insert
  induction d with
  | nil => cases hGet
  | cons entry rest ih =>
      rcases entry with ⟨k, v⟩
      by_cases hKey : k = key
      · have hValue : v = value := by
          simpa [get?, hKey] using hGet
        simp [alter, hKey, hValue]
      · have hRest : get? rest key = some value := by
          simpa [get?, hKey] using hGet
        simp [alter, hKey, ih hRest]

/- A dictionary merged into itself is what it was. -/
theorem merge_self
    {d : Dict α}
    (hDistinct : (keys d).Nodup) :
    merge d d = d := by
  have hMerge :
      ∀ entries : Dict α, (∀ entry ∈ entries, entry ∈ d) →
        merge d entries = d := by
    intro entries hEntries
    induction entries with
    | nil => rfl
    | cons entry rest ih =>
        have hGet := get?_of_mem hDistinct
          (hEntries entry List.mem_cons_self)
        rw [merge_cons, insert_of_get? hGet]
        exact ih fun e hMem =>
          hEntries e (List.mem_cons_of_mem entry hMem)
  exact hMerge d fun _ hMem => hMem

------------------------------------------------------------
-- Keys In The Order Of Their First Writes
------------------------------------------------------------

/-
  Altering keys one after another keeps those that were
  there, and adds the new ones where each comes first.
-/
theorem keys_foldl_alter
    {β : Type}
    (name : β → Text)
    (f : β → Option α → α)
    (writes : List β)
    (d : Dict α) :
    keys (writes.foldl
        (fun d w => alter (name w) (f w) d) d) =
      keys d ++
        ((writes.map name).filter
          (· ∉ keys d)).eraseDups := by
  induction writes generalizing d with
  | nil => simp
  | cons w rest ih =>
      rw [List.foldl_cons, ih, keys_alter, List.map_cons]
      by_cases hMem : name w ∈ keys d
      · rw [if_pos hMem, List.filter_cons_of_neg (by simpa)]
      · have hRest :
            (rest.map name).filter
                (· ∉ keys d ++ [name w]) =
              ((rest.map name).filter (· ∉ keys d)).filter
                fun key => !key == name w := by
          rw [List.filter_filter]
          apply List.filter_congr
          intro key _
          by_cases hSame : key = name w
          · simp [hSame]
          · simp [hSame]
        rw [if_neg hMem, hRest,
          List.filter_cons_of_pos (by simpa),
          List.eraseDups_cons, List.append_assoc,
          List.singleton_append]

/- So does merging, which may write a key several times. -/
theorem keys_merge_eq
    (d entries : Dict α) :
    keys (merge d entries) =
      keys d ++
        ((keys entries).filter (· ∉ keys d)).eraseDups :=
  keys_foldl_alter Prod.fst (fun entry _ => entry.2) entries d

/- A dictionary has each key where it is written first. -/
theorem keys_ofEntries
    (entries : Dict α) :
    keys (ofEntries entries) = (keys entries).eraseDups := by
  rw [ofEntries, keys_merge_eq]
  simp [keys]

/- A dictionary is given by its keys and their values. -/
theorem ext_of_keys
    {d other : Dict α}
    (hKeys : keys d = keys other)
    (hDistinct : (keys other).Nodup)
    (hValues :
      ∀ entry ∈ d, get? other entry.1 = some entry.2) :
    d = other := by
  induction d generalizing other with
  | nil =>
      cases other with
      | nil => rfl
      | cons entry rest => cases hKeys
  | cons entry rest ih =>
      cases other with
      | nil => cases hKeys
      | cons first more =>
          rcases entry with ⟨k, v⟩
          rcases first with ⟨k', w⟩
          rcases List.cons.inj hKeys with ⟨hKey, hTail⟩
          have hRest : keys rest = keys more := hTail
          rcases List.nodup_cons.mp hDistinct with
            ⟨hNew, hMore⟩
          simp only at hKey
          subst hKey
          have hFirst := hValues (k, v) List.mem_cons_self
          have hValue : w = v := by
            simpa [get?] using hFirst
          rw [hValue, ih hRest hMore ?_]
          intro entry hMem
          have hOther : ¬ k = entry.1 := by
            intro hEq
            have hKeys : entry.1 ∈ keys rest :=
              List.mem_map_of_mem hMem
            have hThere : k ∈ keys more := by
              rw [hEq, ← hRest]
              exact hKeys
            exact hNew hThere
          have hGet :=
            hValues entry (List.mem_cons_of_mem _ hMem)
          simpa [get?, hOther] using hGet

end Dict

end ComponentLoader
