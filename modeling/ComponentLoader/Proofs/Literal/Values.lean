import Mathlib.Tactic
import ComponentLoader.Proofs.Literal.Named

/-
  What is read off the expressions of a script.

  Every entry of a literal goes to one place.  One without
  a fixed name is kept aside, one that is not asked for is
  ignored, and the others are the named entries: each name
  stands where it is first, and has the value of its last
  entry.  Every value has the span of its expression, and
  what cannot be read is kept as it is.

  Main declarations:
    * `Literal.kept`
    * `Literal.ignored`
    * `Literal.keys_named`
    * `Value.Reads`
    * `Value.reads_iff`
    * `Value.Reads.span_eq`
    * `Literal.Divided`
    * `Literal.divided`
    * `Value.reads_literals`
-/

------------------------------------------------------------
-- Entries By Their Names
------------------------------------------------------------

namespace ComponentLoader

namespace Literal

/- The entries with a name that is asked for. -/
def kept
    (l : Literal)
    (wanted : Text → Bool) : List Script.Entry :=
  l.entries.filter fun e => e.name?.any wanted

/- The entries with a name that is not. -/
def ignored
    (l : Literal)
    (wanted : Text → Bool) : List Script.Entry :=
  l.entries.filter fun e => e.name?.any fun n => !wanted n

/- The names of the entries that have one, in order. -/
def names
    (entries : List Script.Entry) : List Text :=
  entries.filterMap Script.Entry.name?

/- Every entry is in one of the three places, once. -/
theorem perm_places
    (l : Literal)
    (wanted : Text → Bool) :
    (l.unnamed ++ (l.kept wanted ++ l.ignored wanted)).Perm
      l.entries := by
  have hNamed :
      (l.kept wanted ++ l.ignored wanted).Perm
        (l.entries.filter fun e => !e.name?.isNone) := by
    have hSplit := List.filter_append_perm
      (fun e : Script.Entry => e.name?.any wanted)
      (l.entries.filter fun e => !e.name?.isNone)
    rw [List.filter_filter, List.filter_filter] at hSplit
    convert hSplit using 2
    · apply List.filter_congr
      intro e _
      cases e.name? with
      | none => rfl
      | some name => simp
    · apply List.filter_congr
      intro e _
      cases e.name? with
      | none => rfl
      | some name => simp
  exact (hNamed.append_left l.unnamed).trans
    (List.filter_append_perm _ _)

end Literal

namespace Value

/- The fields of entries are named as the entries are. -/
theorem keys_fields
    (entries : List Script.Entry) :
    Dict.keys (fields entries) = Literal.names entries := by
  induction entries with
  | nil => rfl
  | cons entry rest ih =>
      have hField :
          Dict.keys (field entry) = entry.name?.toList := by
        cases entry with
        | pair span name value => cases name <;> rfl
        | other span name role => cases name <;> rfl
      unfold Dict.keys at ih hField ⊢
      rw [fields, List.map_append, ih, hField]
      cases hName : entry.name? with
      | none => simp [Literal.names, hName]
      | some name => simp [Literal.names, hName]

end Value

/- All names are asked for in a literal inside a value. -/
theorem Literal.named_all
    (l : Literal) :
    l.named (fun _ => true) =
      Dict.ofEntries (Value.fields l.entries) := by
  unfold named
  rw [List.filter_true]

/- Each name stands where it comes first. -/
theorem Literal.keys_named
    (l : Literal)
    (wanted : Text → Bool) :
    Dict.keys (l.named wanted) =
      (names (l.kept wanted)).eraseDups := by
  have hNames :
      (names l.entries).filter wanted =
        names (l.kept wanted) := by
    unfold names kept
    rw [List.filter_filterMap, List.filterMap_filter]
    apply List.filterMap_congr
    intro e _
    cases e.name? with
    | none => rfl
    | some name => simp [Option.filter]
  have hKeys :
      Dict.keys
          ((Value.fields l.entries).filter
            fun f => wanted f.1) =
        (Dict.keys (Value.fields l.entries)).filter wanted := by
    unfold Dict.keys
    rw [List.filter_map]
    rfl
  rw [named, Dict.keys_ofEntries, hKeys, Value.keys_fields,
    hNames]

------------------------------------------------------------
-- Values And What They Are Read Off
------------------------------------------------------------

namespace Value

/- Whether an expression has a value of its own kind. -/
def readable : Script.Expr → Bool
  | .bool _ _ => true
  | .num _ _ => true
  | .str _ value => value.isSome
  | .object _ _ => true
  | .array _ _ => true
  | _ => false

mutual

/-
  Whether a value is what an expression says.  In an object
  the last entry with a name says what its value is.
-/
inductive Reads : Script.Expr → Value → Prop where
  | bool (span : Span) (b : Bool) :
      Reads (.bool span b) (.bool span b)
  | num (span : Span) (n : Binary64) :
      Reads (.num span n) (.num span n)
  | str (span : Span) (t : Text) :
      Reads (.str span (some t)) (.str span t)
  | array (span : Span)
      {elements : List Script.Element}
      {items : List Value}
      (hItems : List.Forall₂ ReadsItem elements items) :
      Reads (.array span elements) (.seq span items)
  | object (span : Span)
      {entries : List Script.Entry}
      {named : Dict Value}
      (hKeys :
        Dict.keys named = (Literal.names entries).eraseDups)
      (hValues :
        ∀ name v entry,
          (name, v) ∈ named →
          Literal.lastNamed? ⟨span, entries⟩ name =
            some entry →
          ReadsEntry entry v) :
      Reads (.object span entries)
        (.map ⟨span, entries⟩ named
          (Literal.unnamed ⟨span, entries⟩))
  /- Nothing is lost of an expression that is not read. -/
  | expr {e : Script.Expr}
      (hKept : readable e = false) :
      Reads e (.expr e)

/- Whether it is the value of a named entry. -/
inductive ReadsEntry : Script.Entry → Value → Prop where
  | pair (span : Span) (name : Option Text)
      {e : Script.Expr}
      {v : Value}
      (hValue : Reads e v) :
      ReadsEntry (.pair span name e) v
  | other (span : Span) (name : Option Text)
      (role : Script.Role) :
      ReadsEntry (.other span name role)
        (.prop (.other span name role))

/- Whether it is the item for an element of an array. -/
inductive ReadsItem : Script.Element → Value → Prop where
  | hole : ReadsItem .hole .hole
  | item
      {e : Script.Expr}
      {v : Value}
      (hValue : Reads e v) :
      ReadsItem (.item e) v
  | spread (dots : Nat) (e : Script.Expr) :
      ReadsItem (.spread dots e) (.element (.spread dots e))

end

/- An expression that is not read is kept as it is. -/
theorem reads_kept_iff
    {e : Script.Expr}
    (hKept : readable e = false)
    (v : Value) :
    Reads e v ↔ v = .expr e := by
  constructor
  · intro hReads
    cases hReads with
    | expr => rfl
    | _ => cases hKept
  · rintro rfl
    exact Reads.expr hKept

/- The value of a key is that of its last entry. -/
theorem get?_all
    (l : Literal)
    (name : Text) :
    Dict.get? (Dict.ofEntries (fields l.entries)) name =
      (l.lastNamed? name).map ofEntry := by
  rw [← l.named_all, l.get?_named rfl]

/- The last entry with a name is one of the literal. -/
theorem mem_of_lastNamed?
    {l : Literal}
    {name : Text}
    {entry : Script.Entry}
    (hLast : l.lastNamed? name = some entry) :
    entry ∈ l.entries :=
  List.mem_reverse.mp (List.mem_of_find?_eq_some hLast)

/-
  What an object says, given what its entries say: names
  and values are those of the dictionary that is written
  entry by entry.
-/
theorem reads_object_iff
    {span : Span}
    {entries : List Script.Entry}
    (hEntries :
      ∀ entry ∈ entries, ∀ v,
        ReadsEntry entry v ↔ v = ofEntry entry)
    (v : Value) :
    Reads (.object span entries) v ↔
      v = ofExpr (.object span entries) := by
  let l : Literal := ⟨span, entries⟩
  have hWritten :
      Dict.keys (Dict.ofEntries (fields entries)) =
        (Literal.names entries).eraseDups := by
    rw [Dict.keys_ofEntries, keys_fields]
  have hDistinct :
      (Dict.keys (Dict.ofEntries (fields entries))).Nodup :=
    Dict.nodup_keys_ofEntries _
  constructor
  · intro hReads
    cases hReads with
    | expr hKept => cases hKept
    | object _ hKeys hValues =>
        rename_i named
        have hNamed :
            named = Dict.ofEntries (fields entries) := by
          apply Dict.ext_of_keys (hKeys.trans hWritten.symm)
            hDistinct
          rintro ⟨name, v⟩ hMem
          have hName :
              name ∈ Dict.keys
                (Dict.ofEntries (fields entries)) := by
            rw [hWritten, ← hKeys]
            exact List.mem_map_of_mem hMem
          have hGet := get?_all l name
          cases hLast : l.lastNamed? name with
          | none =>
              rcases List.mem_map.mp hName with
                ⟨field, hField, rfl⟩
              rw [Dict.get?_of_mem hDistinct hField, hLast]
                at hGet
              cases hGet
          | some entry =>
              have hValue :=
                hValues name v entry hMem hLast
              rw [hEntries entry (mem_of_lastNamed? hLast)]
                at hValue
              rw [hGet, hLast, hValue]
              rfl
        rw [hNamed]
        rfl
  · rintro rfl
    refine Reads.object span hWritten ?_
    intro name v entry hMem hLast
    have hGet := Dict.get?_of_mem hDistinct hMem
    rw [get?_all l name, hLast] at hGet
    rw [hEntries entry (mem_of_lastNamed? hLast)]
    exact (Option.some.inj hGet).symm

mutual

/- What an expression says is the value that it has. -/
theorem reads_iff :
    ∀ (e : Script.Expr) (v : Value),
      Reads e v ↔ v = ofExpr e
  | .bool span b, v => by
      constructor
      · intro hReads
        cases hReads with
        | bool => rfl
        | expr hKept => cases hKept
      · rintro rfl
        exact Reads.bool span b
  | .num span n, v => by
      constructor
      · intro hReads
        cases hReads with
        | num => rfl
        | expr hKept => cases hKept
      · rintro rfl
        exact Reads.num span n
  | .str span (some t), v => by
      constructor
      · intro hReads
        cases hReads with
        | str => rfl
        | expr hKept => cases hKept
      · rintro rfl
        exact Reads.str span t
  | .array span elements, v => by
      constructor
      · intro hReads
        cases hReads with
        | array _ hItems =>
            rw [readsItems_iff elements] at hItems
            rw [hItems]
            rfl
        | expr hKept => cases hKept
      · rintro rfl
        exact Reads.array span
          ((readsItems_iff elements _).mpr rfl)
  | .object _ entries, v =>
      reads_object_iff (readsEntries_iff entries) v
  | .str _ none, v => reads_kept_iff rfl v
  | .name _ _, v => reads_kept_iff rfl v
  | .call _ _ _, v => reads_kept_iff rfl v
  | .paren _ _, v => reads_kept_iff rfl v
  | .form _ _, v => reads_kept_iff rfl v
termination_by structural e => e

theorem readsEntries_iff :
    ∀ (entries : List Script.Entry),
      ∀ entry ∈ entries, ∀ v,
        ReadsEntry entry v ↔ v = ofEntry entry
  | [], entry, hMem, _ => by cases hMem
  | first :: rest, entry, hMem, v => by
      rcases List.mem_cons.mp hMem with hFirst | hMem
      · rw [hFirst]
        exact readsEntry_iff first v
      · exact readsEntries_iff rest entry hMem v
termination_by structural entries => entries

theorem readsEntry_iff :
    ∀ (entry : Script.Entry) (v : Value),
      ReadsEntry entry v ↔ v = ofEntry entry
  | .pair span name e, v => by
      constructor
      · intro hReads
        cases hReads with
        | pair _ _ hValue => exact (reads_iff e v).mp hValue
      · intro hValue
        exact ReadsEntry.pair span name
          ((reads_iff e v).mpr hValue)
  | .other span name role, v => by
      constructor
      · intro hReads
        cases hReads
        rfl
      · rintro rfl
        exact ReadsEntry.other span name role
termination_by structural entry => entry

theorem readsItems_iff :
    ∀ (elements : List Script.Element) (items : List Value),
      List.Forall₂ ReadsItem elements items ↔
        items = ofElements elements
  | [], items => by
      rw [List.forall₂_nil_left_iff]
      rfl
  | first :: rest, items => by
      rw [List.forall₂_cons_left_iff]
      constructor
      · rintro ⟨v, more, hFirst, hRest, rfl⟩
        rw [readsItem_iff first] at hFirst
        rw [readsItems_iff rest] at hRest
        rw [hFirst, hRest]
        rfl
      · rintro rfl
        exact ⟨ofElement first, ofElements rest,
          (readsItem_iff first _).mpr rfl,
          (readsItems_iff rest _).mpr rfl, rfl⟩
termination_by structural elements => elements

theorem readsItem_iff :
    ∀ (element : Script.Element) (v : Value),
      ReadsItem element v ↔ v = ofElement element
  | .hole, v => by
      constructor
      · intro hReads
        cases hReads
        rfl
      · rintro rfl
        exact ReadsItem.hole
  | .item e, v => by
      constructor
      · intro hReads
        cases hReads with
        | item hValue => exact (reads_iff e v).mp hValue
      · intro hValue
        exact ReadsItem.item ((reads_iff e v).mpr hValue)
  | .spread dots e, v => by
      constructor
      · intro hReads
        cases hReads
        rfl
      · rintro rfl
        exact ReadsItem.spread dots e
termination_by structural element => element

end

------------------------------------------------------------
-- Spans
------------------------------------------------------------

/- A value has the span of what it is read off. -/
theorem Reads.span_eq
    {e : Script.Expr}
    {v : Value}
    (hReads : Reads e v) :
    v.span = e.span := by
  cases hReads <;> rfl

/- So has an item, but for a hole, which has none. -/
theorem ReadsItem.span_eq
    {element : Script.Element}
    {v : Value}
    (hReads : ReadsItem element v) :
    v.span = element.span := by
  cases hReads with
  | hole => rfl
  | item hValue => exact hValue.span_eq
  | spread dots e => rfl

end Value

------------------------------------------------------------
-- Literals And Expressions
------------------------------------------------------------

/-
  Whether the entries of a literal go where they belong.
  Entries without a name are kept aside in their order.
  The named ones that are asked for make the dictionary,
  in which the last entry of a name counts.
-/
structure Literal.Divided
    (l : Literal)
    (wanted : Text → Bool) : Prop where
  once :
    (l.unnamed ++ (l.kept wanted ++ l.ignored wanted)).Perm
      l.entries
  unnamed :
    l.unnamed = l.entries.filter fun e => e.name? = none
  keys :
    Dict.keys (l.named wanted) =
      (names (l.kept wanted)).eraseDups
  values :
    ∀ name v,
      (l.named wanted).get? name = some v ↔
        wanted name = true ∧
          ∃ entry,
            l.lastNamed? name = some entry ∧
              Value.ReadsEntry entry v

theorem Literal.divided
    (l : Literal)
    (wanted : Text → Bool) :
    l.Divided wanted where
  once := l.perm_places wanted
  unnamed := by
    apply List.filter_congr
    intro e _
    cases e.name? with
    | none => rfl
    | some name => rfl
  keys := l.keys_named wanted
  values := by
    intro name v
    by_cases hWanted : wanted name = true
    · rw [l.get?_named hWanted, Option.map_eq_some_iff]
      simp only [hWanted, true_and,
        Value.readsEntry_iff, eq_comm]
    · have hNew :
          name ∉ Dict.keys (l.named wanted) := by
        rw [l.keys_named, List.mem_eraseDups]
        intro hMem
        rcases List.mem_filterMap.mp hMem with
          ⟨entry, hEntry, hName⟩
        have hAny := (List.mem_filter.mp hEntry).2
        rw [hName] at hAny
        exact hWanted hAny
      rw [Dict.get?_of_not_mem hNew]
      simp [hWanted]

namespace Value

/-
  Reading loses nothing.  Every literal is divided, however
  many of its names are asked for.  Every expression has
  the one value that it says, with the span that it has,
  and so have all that are inside it.
-/
theorem reads_literals :
    (∀ (l : Literal) (wanted : Text → Bool),
      l.Divided wanted) ∧
    (∀ e v, Reads e v ↔ v = ofExpr e) ∧
    (∀ e v, Reads e v → v.span = e.span) ∧
    ∀ element v,
      ReadsItem element v → v.span = element.span :=
  ⟨Literal.divided, reads_iff,
    fun _ _ hReads => hReads.span_eq,
    fun _ _ hReads => hReads.span_eq⟩

namespace Sample

/- An array with a hole and a spread. -/
def array : Script.Expr :=
  .array ⟨30, 40⟩
    [ .item (.bool ⟨31, 35⟩ true),
      .hole,
      .spread 36 (.name ⟨39, 40⟩ "y".toList) ]

/- An object with a name twice, and an entry without one. -/
def object : Script.Expr :=
  .object ⟨10, 50⟩
    [ .pair ⟨11, 14⟩ (some "a".toList) (.str ⟨13, 14⟩ none),
      .other ⟨15, 18⟩ none .spread,
      .other ⟨19, 24⟩ (some "b".toList) .method,
      .pair ⟨25, 40⟩ (some "a".toList) array ]

end Sample

theorem reads_literals_sample :
    Reads Sample.object
        (.map
          ⟨⟨10, 50⟩,
            [ .pair ⟨11, 14⟩ (some "a".toList)
                (.str ⟨13, 14⟩ none),
              .other ⟨15, 18⟩ none .spread,
              .other ⟨19, 24⟩ (some "b".toList) .method,
              .pair ⟨25, 40⟩ (some "a".toList)
                Sample.array ]⟩
          [ ("a".toList,
              .seq ⟨30, 40⟩
                [ .bool ⟨31, 35⟩ true,
                  .hole,
                  .element (.spread 36
                    (.name ⟨39, 40⟩ "y".toList)) ]),
            ("b".toList,
              .prop (.other ⟨19, 24⟩ (some "b".toList)
                .method)) ]
          [ .other ⟨15, 18⟩ none .spread ]) ∧
      (ofExpr Sample.object).span = ⟨10, 50⟩ := by
  have hReads := reads_literals.2.1 Sample.object
  have hSpan := reads_literals.2.2.1 Sample.object _
    ((hReads _).mpr rfl)
  exact ⟨(hReads _).mpr rfl, hSpan⟩

end Value

end ComponentLoader
