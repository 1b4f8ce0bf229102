import ComponentLoader.Text.Basic

/-
  This file defines dictionaries that keep the order in
  which their keys were first written.

  Key definitions include:
    * `Dict`
    * `Dict.get?`
    * `Dict.insert`
    * `Dict.exchange`
    * `Dict.alter`
    * `Dict.erase`
    * `Dict.merge`
    * `Dict.keys`
-/

namespace ComponentLoader

------------------------------------------------------------
-- Ordered dictionaries
------------------------------------------------------------

/- Keys with their values, in order. -/
abbrev Dict (α : Type) :=
  List (Text × α)

namespace Dict

variable {α : Type}

/- The keys of a dictionary in order. -/
def keys
    (d : Dict α) : List Text :=
  d.map Prod.fst

/- The value of a key. -/
def get? : Dict α → Text → Option α
  | [], _ => none
  | (k, v) :: rest, key =>
      if k = key then some v else get? rest key

/- Whether a key is present. -/
def contains
    (d : Dict α)
    (key : Text) : Bool :=
  (get? d key).isSome

/-
  Give a key the value computed from its present one.  A
  present key keeps its place; a new one goes to the end.
-/
def alter
    (key : Text)
    (f : Option α → α) : Dict α → Dict α
  | [] => [(key, f none)]
  | (k, v) :: rest =>
      if k = key then
        (k, f (some v)) :: rest
      else
        (k, v) :: alter key f rest

/- Write a value; a present key keeps its place. -/
def insert
    (d : Dict α)
    (key : Text)
    (value : α) : Dict α :=
  alter key (fun _ => value) d

/-
  Write a value, and hand back the one that it takes the
  place of.
-/
def exchange
    (key : Text)
    (value : α) : Dict α → Option α × Dict α
  | [] => (none, [(key, value)])
  | (k, v) :: rest =>
      if k = key then
        (some v, (key, value) :: rest)
      else
        let r := exchange key value rest
        (r.1, (k, v) :: r.2)

/- Remove a key; the others keep their order. -/
def erase : Dict α → Text → Dict α
  | [], _ => []
  | (k, v) :: rest, key =>
      if k = key then rest else (k, v) :: erase rest key

/- Write all entries of the second into the first. -/
def merge
    (d other : Dict α) : Dict α :=
  other.foldl (fun d entry => insert d entry.1 entry.2) d

/- The dictionary of entries written one after another. -/
def ofEntries
    (entries : List (Text × α)) : Dict α :=
  merge [] entries

------------------------------------------------------------
-- Reading after writing
------------------------------------------------------------

/- Reading the altered key gives the computed value. -/
theorem get?_alter_self
    (key : Text)
    (f : Option α → α)
    (d : Dict α) :
    get? (alter key f d) key = some (f (get? d key)) := by
  induction d with
  | nil => simp [alter, get?]
  | cons entry rest ih =>
      obtain ⟨k, v⟩ := entry
      by_cases h : k = key
      · simp [alter, get?, h]
      · simp [alter, get?, h, ih]

/- Reading another key is not affected. -/
theorem get?_alter_other
    (key other : Text)
    (f : Option α → α)
    (d : Dict α)
    (h : other ≠ key) :
    get? (alter key f d) other = get? d other := by
  induction d with
  | nil => simp [alter, get?, Ne.symm h]
  | cons entry rest ih =>
      obtain ⟨k, v⟩ := entry
      by_cases hk : k = key
      · subst hk
        simp [alter, get?, Ne.symm h]
      · by_cases ho : k = other
        · subst ho
          simp [alter, get?, hk]
        · simp [alter, get?, hk, ho, ih]

/- Exchanging a value is reading it and writing another. -/
theorem exchange_eq
    (key : Text)
    (value : α)
    (d : Dict α) :
    exchange key value d =
      (get? d key, insert d key value) := by
  induction d with
  | nil => rfl
  | cons entry rest ih =>
      obtain ⟨k, v⟩ := entry
      simp only [insert] at ih
      by_cases h : k = key
      · simp [exchange, get?, insert, alter, h]
      · simp [exchange, get?, insert, alter, h, ih]

/- Writing a key adds it at the end if it is new. -/
theorem keys_insert
    (d : Dict α)
    (key : Text)
    (value : α) :
    keys (insert d key value) =
      if key ∈ keys d then keys d else keys d ++ [key] := by
  induction d with
  | nil => simp [insert, alter, keys]
  | cons entry rest ih =>
      obtain ⟨k, v⟩ := entry
      simp only [insert] at ih
      by_cases h : k = key
      · simp [insert, alter, keys, h]
      · have h' : ¬ key = k := fun e => h e.symm
        simp only [keys] at ih
        by_cases hm : key ∈ rest.map Prod.fst
        · simp [insert, alter, h, keys, h', ih, hm]
        · simp [insert, alter, h, keys, h', ih, hm]

end Dict

end ComponentLoader
