import ComponentLoader.Dict

/-
  This file defines queries: ordered parameters whose
  values may nest.

  A key without a value is a flag, which is neither an
  absent key nor an empty value.  A key written several
  times keeps all its values, apart from a list written
  with brackets.

  Key definitions include:
    * `Query.Value`
    * `Query`
    * `Query.get?`
    * `Query.insert`
    * `Query.exchange`
    * `Query.merge`
    * `Query.Value.same`
-/

namespace ComponentLoader

------------------------------------------------------------
-- Values
------------------------------------------------------------

/- The value of a query parameter. -/
inductive Query.Value where
  /- A key without a value. -/
  | flag
  /- A key with a value, which may be empty. -/
  | text (value : Text)
  /- Values written with brackets. -/
  | list (items : List Query.Value)
  /- A plain key written more than once. -/
  | repeated (items : List Query.Value)
  /- Values under bracketed keys of their own. -/
  | map (entries : List (Text × Query.Value))
  deriving Inhabited

namespace Query
namespace Value

/- Another value for a key that has one. -/
def push
    (old value : Value) : Value :=
  match old with
  | list items => list (items ++ [value])
  | repeated items => repeated (items ++ [value])
  | other => repeated [other, value]

/- The text of a text value. -/
def text? : Value → Option Text
  | text t => some t
  | _ => none

/- Whether a value is written with further brackets. -/
def isNested : Value → Bool
  | list _ => true
  | map _ => true
  | _ => false

------------------------------------------------------------
-- Equality up to the order of keys
------------------------------------------------------------

mutual

/-
  Whether two values are equal when the order of the keys
  of maps does not count.
-/
def same : Value → Value → Bool
  | flag, flag => true
  | text a, text b => a == b
  | list a, list b => sameItems a b
  | repeated a, repeated b => sameItems a b
  | map a, map b => a.length == b.length && sameEntries a b
  | _, _ => false
termination_by structural v => v

/- The same, item by item. -/
def sameItems : List Value → List Value → Bool
  | [], [] => true
  | a :: as, b :: bs => same a b && sameItems as bs
  | _, _ => false
termination_by structural vs => vs

/- Whether every entry has its equal in a dictionary. -/
def sameEntries :
    List (Text × Value) → Dict Value → Bool
  | [], _ => true
  | (key, a) :: rest, b =>
      match b.get? key with
      | some value => same a value && sameEntries rest b
      | none => false
termination_by structural entries => entries

end

end Value
end Query

------------------------------------------------------------
-- Queries
------------------------------------------------------------

/- The parameters of a query, in the order written. -/
structure Query where
  params : Dict Query.Value
  deriving Inhabited

namespace Query

/- The query without parameters. -/
def empty : Query :=
  { params := [] }

/- Whether there are no parameters. -/
def isEmpty
    (q : Query) : Bool :=
  q.params.isEmpty

/- The number of parameters. -/
def size
    (q : Query) : Nat :=
  q.params.length

/- The value of a key. -/
def get?
    (q : Query)
    (key : Text) : Option Value :=
  q.params.get? key

/- Whether a key is present, with a value or without. -/
def contains
    (q : Query)
    (key : Text) : Bool :=
  q.params.contains key

/- Write a value; a present key keeps its place. -/
def insert
    (q : Query)
    (key : Text)
    (value : Value) : Query :=
  { params := q.params.insert key value }

/- Write a value, and hand back the one there was. -/
def exchange
    (q : Query)
    (key : Text)
    (value : Value) : Option Value × Query :=
  let r := q.params.exchange key value
  (r.1, { params := r.2 })

/- Write a key without a value. -/
def flag
    (q : Query)
    (key : Text) : Query :=
  q.insert key .flag

/- Write a text. -/
def set
    (q : Query)
    (key value : Text) : Query :=
  q.insert key (.text value)

/- Write all parameters of another query. -/
def merge
    (q other : Query) : Query :=
  { params := q.params.merge other.params }

/- The query of entries written one after another. -/
def ofEntries
    (entries : List (Text × Value)) : Query :=
  { params := Dict.ofEntries entries }

/- Equality up to the order of keys. -/
def same
    (q other : Query) : Bool :=
  Value.same (.map q.params) (.map other.params)

end Query
end ComponentLoader
