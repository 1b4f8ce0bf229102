import ComponentLoader.Query.Basic
import ComponentLoader.Query.Escape
import ComponentLoader.Query.Key

/-
  This file defines how a query string is read.

  Reading never fails.  Pairs are read in order, each into
  the slot of its key's root; a segment of digits makes
  the slot a list, any other segment makes it a map.

  Key definitions include:
    * `Query.Pair`
    * `Query.Pair.ofText?`
    * `Query.nest`
    * `Query.place`
    * `Query.insertNested`
    * `Query.parse`
-/

namespace ComponentLoader
namespace Query

------------------------------------------------------------
-- Pairs
------------------------------------------------------------

/- A decoded key and its value, a flag or a text. -/
structure Pair where
  key : Text
  value : Value

/-
  The pair written by a piece between two ampersands.  A
  piece with an empty key writes none.
-/
def Pair.ofText?
    (piece : Text) : Option Pair :=
  let pair : Pair :=
    match Text.splitOnce '=' piece with
    | some (key, value) =>
        { key := unescape key
          value := .text (unescape value) }
    | none =>
        { key := unescape piece, value := .flag }
  if pair.key.isEmpty then none else some pair

/- The pairs of a query string in order. -/
def pairs
    (input : Text) : List Pair :=
  (Text.splitAll '&' input).filterMap Pair.ofText?

------------------------------------------------------------
-- Building a value under segments
------------------------------------------------------------

/- A value wrapped in a list or a map per segment. -/
def nest : List Text → Value → Value
  | [], value => value
  | segment :: rest, value =>
      if Key.isIndex segment then
        .list [nest rest value]
      else
        .map [(segment, nest rest value)]

------------------------------------------------------------
-- Writing into a slot
------------------------------------------------------------

/- The items a slot holds when it is read as a list. -/
def slotItems : Option Value → List Value
  | some (.list items) => items
  | some (.repeated items) => items
  | _ => []

/- The entries a slot holds when it is read as a map. -/
def slotEntries : Option Value → Dict Value
  | some (.map entries) => entries
  | _ => []

/-
  Write a value under segments into the slot of a key, and
  give what the slot holds then.

  A list takes a value at its end, unless an index names
  one of its items and further segments follow: a map
  there is written into, any other item is replaced.
-/
def place : List Text → Value → Option Value → Value
  | [], value, none => value
  | [], value, some old => old.push value
  | [segment], value, slot =>
      if Key.isIndex segment then
        .list (slotItems slot ++ [value])
      else
        .map (Dict.alter segment (place [] value)
          (slotEntries slot))
  | segment :: next :: rest, value, slot =>
      if Key.isIndex segment then
        let items := slotItems slot
        let fresh := nest (next :: rest) value
        match Key.index? segment with
        | none => .list (items ++ [fresh])
        | some i =>
            match items[i]? with
            | none => .list (items ++ [fresh])
            | some (.map inner) =>
                .list (items.set i (.map
                  (Dict.alter next (place rest value)
                    inner)))
            | some _ => .list (items.set i fresh)
      else
        .map (Dict.alter segment
          (place (next :: rest) value) (slotEntries slot))

/- Write a value under a key and its segments. -/
def insertNested
    (entries : Dict Value)
    (key : Text)
    (segments : List Text)
    (value : Value) : Dict Value :=
  Dict.alter key (place segments value) entries

------------------------------------------------------------
-- Reading
------------------------------------------------------------

/- Read one more pair. -/
def insertPair
    (entries : Dict Value)
    (pair : Pair) : Dict Value :=
  let key := Key.split pair.key
  insertNested entries key.root key.segments pair.value

/- The query written by a text. -/
def parse
    (input : Text) : Query :=
  { params := (pairs input).foldl insertPair [] }

end Query
end ComponentLoader
