import Mathlib.Tactic
import ComponentLoader.Proofs.Component.Requests
import ComponentLoader.Proofs.Literal.Named

/-
  The imports of styles, read off the script.  A style is
  a path, an import of one, or a descriptor, at any depth
  of arrays.  Classifying styles makes just these imports,
  in order, each in the scope that its own descriptor asks
  for.

  Main declarations:
    * `Script.Expr.Imports`
    * `Styles.Import`
    * `Styles.imports`
    * `Styles.Outcome.Shows`
    * `Styles.shows_classify`
    * `Styles.classify_of_not_isScoped`
-/

------------------------------------------------------------
-- Paths In A Script
------------------------------------------------------------

namespace ComponentLoader

namespace Script

/-
  Whether an expression imports a path: it calls the import
  function with one argument, a string with this value.
-/
def Expr.Imports
    (e : Expr)
    (path : Text) : Prop :=
  ∃ call callee argument,
    e =
      .call call (.name callee importName)
        [.item (.str argument (some path))]

theorem Expr.importPath?_eq_some_iff
    {e : Expr}
    {path : Text} :
    e.importPath? = some path ↔ e.Imports path := by
  constructor
  · intro hPath
    unfold importPath? at hPath
    split at hPath
    · next call argument value hCall =>
        unfold callOf? at hCall
        split at hCall
        · next span callee name arguments =>
            split at hCall
            · next hName =>
                rw [Option.some.injEq, Call.mk.injEq] at hCall
                rcases hCall with ⟨_, rfl⟩
                subst hName hPath
                exact ⟨span, callee, argument, rfl⟩
            · exact absurd hCall (by simp)
        · exact absurd hCall (by simp)
    · exact absurd hPath (by simp)
  · rintro ⟨call, callee, argument, rfl⟩
    simp [importPath?, callOf?]

/- The path of a style: a string, or an import of one. -/
def Expr.stylePath? : Expr → Option Text
  | .str _ path => path
  | e => e.importPath?

/- The path of an import is the same read off its value. -/
theorem Expr.importPath?_ofExpr
    (e : Expr) :
    (Value.ofExpr e).importPath? = e.importPath? := by
  cases e with
  | str span value => cases value <;> rfl
  | _ => rfl

/- The path of a style is the same read off its value. -/
theorem Expr.path?_ofExpr
    (e : Expr) :
    Styles.path? (Value.ofExpr e) = e.stylePath? := by
  cases e with
  | str span value => cases value <;> rfl
  | _ => rfl

end Script

namespace Literal

/- Whether the last flag of a descriptor says `true`. -/
def saysScoped
    (l : Literal) : Bool :=
  match l.lastNamed? scopedName with
  | some (.pair _ _ (.bool _ value)) => value
  | _ => false

/- The path of the last style of a descriptor. -/
def stylePath?
    (l : Literal) : Option Text :=
  match l.lastNamed? styleName with
  | some (.pair _ _ value) => value.stylePath?
  | _ => none

/- The flag of a descriptor is the same read off values. -/
theorem bool?_scoped
    (l : Literal) :
    (((Dict.ofEntries (Value.fields l.entries)).get?
        scopedName).bind Value.bool?).getD false =
      l.saysScoped := by
  rw [Dict.get?_ofEntries, Value.get?_fields]
  unfold saysScoped lastNamed?
  cases l.entries.reverse.find? fun e =>
      e.name? == some scopedName with
  | none => rfl
  | some entry =>
      cases entry with
      | other span name role => rfl
      | pair span name value =>
          cases value with
          | str s t => cases t <;> rfl
          | _ => rfl

/- The path of a descriptor is the same read off values. -/
theorem path?_style
    (l : Literal) :
    ((Dict.ofEntries (Value.fields l.entries)).get?
        styleName).bind Styles.path? =
      l.stylePath? := by
  rw [Dict.get?_ofEntries, Value.get?_fields]
  unfold stylePath? lastNamed?
  cases l.entries.reverse.find? fun e =>
      e.name? == some styleName with
  | none => rfl
  | some entry =>
      cases entry with
      | other span name role => rfl
      | pair span name value => exact value.path?_ofExpr

end Literal

------------------------------------------------------------
-- Imports In A Script
------------------------------------------------------------

namespace Styles

/- An import of a style, and whether it is to be scoped. -/
structure Import where
  path : Text
  isScoped : Bool
  deriving DecidableEq

/- The scope of an import. -/
def Import.scope
    (scopeId : Text)
    (i : Import) : Option Text :=
  if i.isScoped then some scopeId else none

/- The request that is made for an import. -/
def Import.request
    (scopeId : Text)
    (i : Import) : Text :=
  Resource.request .style i.path (i.scope scopeId)

/-
  The imports of a descriptor: its path, under its own
  flag, for every entry that holds a style.
-/
def descriptorImports
    (l : Literal) : List Import :=
  match l.stylePath? with
  | none => []
  | some path =>
      if l.isStyleDescriptor then
        (l.entries.filter fun e =>
          e.name? == some styleName).map fun _ =>
            { path := path, isScoped := l.saysScoped }
      else
        []

mutual

/- The imports of styles, in order. -/
def imports : Script.Expr → List Import
  | .object span entries =>
      descriptorImports { span := span, entries := entries }
  | .array _ elements => allImports elements
  | e =>
      e.stylePath?.toList.map fun path =>
        { path := path, isScoped := false }
termination_by structural e => e

/- The imports of the elements of an array. -/
def allImports : List Script.Element → List Import
  | [] => []
  | first :: rest => itemImports first ++ allImports rest
termination_by structural elements => elements

/- The imports of an element of an array. -/
def itemImports : Script.Element → List Import
  | .item value => imports value
  | .hole => []
  | .spread _ _ => []
termination_by structural element => element

end

/- The imports of an entry, if it is paired with styles. -/
def entryImports : Script.Entry → List Import
  | .pair _ _ value => imports value
  | .other _ _ _ => []

------------------------------------------------------------
-- What Styles Come To
------------------------------------------------------------

variable {source : Source}
variable {scopeId : Text}

/-
  An outcome that makes some imports: it changes if there
  are any, and is scoped if any of them is.
-/
structure Outcome.Shows
    (o : Outcome)
    (scopeId : Text)
    (is : List Import) : Prop where
  requests : o.node.requests = is.map (Import.request scopeId)
  changed : o.changed = !is.isEmpty
  isScoped : o.isScoped = is.any fun i => i.isScoped

/- Outcomes that make some imports between them. -/
structure AllShow
    (os : List Outcome)
    (scopeId : Text)
    (is : List Import) : Prop where
  requests :
    Node.allRequests (os.map fun o => o.node) =
      is.map (Import.request scopeId)
  changed : (os.any fun o => o.changed) = !is.isEmpty
  isScoped :
    (os.any fun o => o.isScoped) =
      is.any fun i => i.isScoped

theorem AllShow.cons
    {o : Outcome}
    {os : List Outcome}
    {is more : List Import}
    (hFirst : o.Shows scopeId is)
    (hRest : AllShow os scopeId more) :
    AllShow (o :: os) scopeId (is ++ more) where
  requests := by
    rw [List.map_cons, Node.allRequests, hFirst.requests,
      hRest.requests, List.map_append]
  changed := by
    rw [List.any_cons, hFirst.changed, hRest.changed]
    cases is <;> rfl
  isScoped := by
    rw [List.any_cons, hFirst.isScoped, hRest.isScoped,
      List.any_append]

/- What is kept makes no imports. -/
theorem shows_kept
    (value : Value) :
    (kept source value).Shows scopeId [] := by
  cases value <;> exact ⟨rfl, rfl, rfl⟩

theorem shows_ofPath
    (path : Text) :
    (ofPath path).Shows scopeId
      [{ path := path, isScoped := false }] :=
  ⟨rfl, rfl, rfl⟩

/- The requests of a descriptor, one for every style. -/
theorem requests_descriptorProps
    (path : Text)
    (scope : Option Text)
    (l : Literal) :
    (Node.object
        (descriptorProps source (importOf path scope)
          l)).requests =
      (l.entries.filter fun e =>
        e.name? == some styleName).map fun _ =>
          Resource.request .style path scope := by
  rw [Node.requests, PropNode.allRequests_eq]
  unfold descriptorProps
  induction l.entries with
  | nil => rfl
  | cons entry rest ih =>
      rw [List.map_cons, List.flatMap_cons, ih,
        List.filter_cons]
      by_cases hName : entry.name? = some styleName
      · simp [hName, importOf, PropNode.requests,
          Node.requests]
      · simp [hName, PropNode.requests]

/- A descriptor has an entry that holds its style. -/
theorem styles_ne_nil
    {l : Literal}
    {path : Text}
    (hPath : l.stylePath? = some path) :
    (l.entries.filter fun e =>
      e.name? == some styleName) ≠ [] := by
  unfold Literal.stylePath? at hPath
  split at hPath
  · next span name value hLast =>
      have hMem := List.mem_of_find?_eq_some hLast
      have hName := List.find?_some hLast
      rw [List.mem_reverse] at hMem
      exact List.ne_nil_of_mem
        (List.mem_filter.mpr ⟨hMem, hName⟩)
  · exact absurd hPath (by simp)

/- A descriptor makes the imports of its styles. -/
theorem shows_ofDescriptor
    {l : Literal}
    (hDescriptor : l.isStyleDescriptor = true)
    (value : Value) :
    (ofDescriptor source scopeId value l
        (Dict.ofEntries (Value.fields l.entries))).Shows
      scopeId (descriptorImports l) := by
  unfold ofDescriptor descriptorImports
  simp only [l.path?_style, l.bool?_scoped, hDescriptor,
    if_true]
  cases hPath : l.stylePath? with
  | none => exact shows_kept value
  | some path =>
      refine ⟨?_, ?_, ?_⟩
      · rw [requests_descriptorProps, List.map_map]
        rfl
      · simpa using styles_ne_nil hPath
      · have hSome := styles_ne_nil hPath
        simp only [List.any_map]
        cases hStyles : l.entries.filter fun e =>
            e.name? == some styleName with
        | nil => exact absurd hStyles hSome
        | cons first rest => simp

/- An object is a style if it is a descriptor. -/
theorem classify_map
    (l : Literal)
    (entries : Dict Value)
    (additional : List Script.Entry) :
    classify source scopeId (.map l entries additional) =
      if l.isStyleDescriptor then
        ofDescriptor source scopeId
          (.map l entries additional) l entries
      else
        kept source (.map l entries additional) :=
  rfl

/- An object makes imports if it is a descriptor. -/
theorem shows_map
    (l : Literal) :
    (classify source scopeId
        (.map l (Dict.ofEntries (Value.fields l.entries))
          l.unnamed)).Shows
      scopeId (descriptorImports l) := by
  rw [classify_map]
  split
  · next hDescriptor =>
      exact shows_ofDescriptor hDescriptor _
  · next hOther =>
      have hNone : descriptorImports l = [] := by
        unfold descriptorImports
        split
        · rfl
        · rw [if_neg hOther]
      rw [hNone]
      exact shows_kept _

/- Any other style makes the import of its path. -/
theorem shows_stylePath?
    (e : Script.Expr) :
    (match e.stylePath? with
      | some path => ofPath path
      | none => kept source (Value.ofExpr e)).Shows scopeId
        (e.stylePath?.toList.map fun path =>
          { path := path, isScoped := false }) := by
  cases e.stylePath? with
  | none => exact shows_kept _
  | some path => exact shows_ofPath path

theorem shows_ofItems
    {os : List Outcome}
    {is : List Import}
    (hAll : AllShow os scopeId is)
    (value : Value) :
    (ofItems source value os).Shows scopeId is := by
  unfold ofItems
  rw [hAll.changed]
  cases is with
  | nil => exact shows_kept value
  | cons first rest =>
      refine ⟨?_, rfl, hAll.isScoped⟩
      exact hAll.requests

mutual

/- Classifying styles makes their imports. -/
theorem shows_classify :
    (e : Script.Expr) →
    (classify source scopeId (Value.ofExpr e)).Shows scopeId
      (imports e)
  | .object span entries =>
      shows_map { span := span, entries := entries }
  | .array span elements => by
      rw [Value.ofExpr, classify, imports]
      exact shows_ofItems (shows_classifyAll elements) _
  | .str span (some path) => shows_ofPath path
  | .str span none => shows_stylePath? (.str span none)
  | .name span n => shows_stylePath? (.name span n)
  | .num span n => shows_stylePath? (.num span n)
  | .bool span b => shows_stylePath? (.bool span b)
  | .call span callee arguments =>
      shows_stylePath? (.call span callee arguments)
  | .paren span inner => shows_stylePath? (.paren span inner)
  | .form span form => shows_stylePath? (.form span form)
termination_by structural e => e

theorem shows_classifyAll :
    (elements : List Script.Element) →
    AllShow
      (classifyAll source scopeId
        (Value.ofElements elements))
      scopeId (allImports elements)
  | [] => ⟨rfl, rfl, rfl⟩
  | first :: rest =>
      AllShow.cons (shows_element first)
        (shows_classifyAll rest)
termination_by structural elements => elements

theorem shows_element :
    (element : Script.Element) →
    (classify source scopeId
        (Value.ofElement element)).Shows scopeId
      (itemImports element)
  | .item value => shows_classify value
  | .hole => ⟨rfl, rfl, rfl⟩
  | .spread dots value =>
      shows_kept (.element (.spread dots value))
termination_by structural element => element

end

/- Classifying the value of an entry makes its imports. -/
theorem shows_entry
    (source : Source)
    (scopeId : Text)
    (entry : Script.Entry) :
    (classify source scopeId (Value.ofEntry entry)).Shows
      scopeId (entryImports entry) := by
  cases entry with
  | pair span name value => exact shows_classify value
  | other span name role =>
      exact shows_kept (.prop (.other span name role))

------------------------------------------------------------
-- Styles Without A Scope
------------------------------------------------------------

theorem isScoped_kept
    (value : Value) :
    (kept source value).isScoped = false := by
  cases value <;> rfl

theorem changed_ofItems
    {value : Value}
    {os : List Outcome}
    (hScoped : (ofItems source value os).isScoped = true) :
    (ofItems source value os).changed = true := by
  unfold ofItems at hScoped ⊢
  split
  · rfl
  · next hSame =>
      rw [if_neg hSame, isScoped_kept] at hScoped
      exact absurd hScoped (by simp)

theorem changed_ofDescriptor
    {value : Value}
    {l : Literal}
    {entries : Dict Value}
    (hScoped :
      (ofDescriptor source scopeId value l
        entries).isScoped = true) :
    (ofDescriptor source scopeId value l
      entries).changed = true := by
  unfold ofDescriptor at hScoped ⊢
  simp only at hScoped ⊢
  split
  · next hNone =>
      rw [hNone] at hScoped
      simp only [isScoped_kept, Bool.false_eq_true] at hScoped
  · rfl

/- What is scoped is also changed. -/
theorem changed_of_isScoped
    {value : Value}
    (hScoped :
      (classify source scopeId value).isScoped = true) :
    (classify source scopeId value).changed = true := by
  cases value with
  | seq span items => exact changed_ofItems hScoped
  | map l entries additional =>
      rw [classify_map] at hScoped ⊢
      split
      · next hDescriptor =>
          rw [if_pos hDescriptor] at hScoped
          exact changed_ofDescriptor hScoped
      · next hOther =>
          rw [if_neg hOther, isScoped_kept] at hScoped
          exact absurd hScoped Bool.false_ne_true
  | expr e =>
      have hValue :
          classify source scopeId (.expr e) =
            match e.importPath? with
            | some path => ofPath path
            | none => kept source (.expr e) := rfl
      rw [hValue] at hScoped ⊢
      split
      · rfl
      · next hNone =>
          rw [hNone] at hScoped
          exact absurd hScoped Bool.false_ne_true
  | str span path => rfl
  | bool span b => exact absurd hScoped Bool.false_ne_true
  | num span n => exact absurd hScoped Bool.false_ne_true
  | prop entry => exact absurd hScoped Bool.false_ne_true
  | element e => exact absurd hScoped Bool.false_ne_true
  | hole => exact absurd hScoped Bool.false_ne_true

theorem exists_of_mem_classifyAll
    {o : Outcome}
    {values : List Value}
    (hMem : o ∈ classifyAll source scopeId values) :
    ∃ value ∈ values,
      o = classify source scopeId value := by
  induction values with
  | nil => exact absurd hMem (by simp [classifyAll])
  | cons value rest ih =>
      rw [classifyAll, List.mem_cons] at hMem
      rcases hMem with rfl | hMem
      · exact ⟨value, by simp, rfl⟩
      · rcases ih hMem with ⟨v, hV, hEq⟩
        exact ⟨v, List.mem_cons_of_mem _ hV, hEq⟩

/- An array is scoped if any of its items is. -/
theorem isScoped_of_mem_ofItems
    {value : Value}
    {values : List Value}
    (hPlain :
      (ofItems source value
        (classifyAll source scopeId values)).isScoped =
          false) :
    ∀ o ∈ classifyAll source scopeId values,
      o.isScoped = false := by
  intro o hMem
  by_contra hScoped
  rw [Bool.not_eq_false] at hScoped
  rcases exists_of_mem_classifyAll hMem with ⟨v, _, rfl⟩
  have hChanged :
      ((classifyAll source scopeId values).any fun o =>
        o.changed) = true :=
    List.any_eq_true.mpr
      ⟨_, hMem, changed_of_isScoped hScoped⟩
  unfold ofItems at hPlain
  rw [if_pos hChanged] at hPlain
  simp only [List.any_eq_false] at hPlain
  exact hPlain _ hMem hScoped

/- A descriptor that is not scoped uses no scope. -/
theorem ofDescriptor_of_not_isScoped
    {value : Value}
    {l : Literal}
    {entries : Dict Value}
    (hPlain :
      (ofDescriptor source scopeId value l
        entries).isScoped = false)
    (other : Text) :
    ofDescriptor source other value l entries =
      ofDescriptor source scopeId value l entries := by
  unfold ofDescriptor at hPlain ⊢
  simp only at hPlain ⊢
  split
  · rfl
  · next path hPath =>
      rw [hPath] at hPlain
      simp only at hPlain
      rw [hPlain]
      rfl

mutual

/- Styles that are not scoped do not depend on the scope. -/
theorem classify_of_not_isScoped
    (other : Text) :
    (value : Value) →
    (classify source scopeId value).isScoped = false →
    classify source other value =
      classify source scopeId value
  | .seq span items, hPlain => by
      rw [classify] at hPlain
      rw [classify, classify,
        classifyAll_of_not_isScoped other items
          (isScoped_of_mem_ofItems hPlain)]
  | .map l entries additional, hPlain => by
      rw [classify_map] at hPlain
      rw [classify_map, classify_map]
      split
      · next hDescriptor =>
          rw [if_pos hDescriptor] at hPlain
          exact ofDescriptor_of_not_isScoped hPlain other
      · rfl
  | .bool _ _, _ => rfl
  | .num _ _, _ => rfl
  | .str _ _, _ => rfl
  | .expr _, _ => rfl
  | .prop _, _ => rfl
  | .element _, _ => rfl
  | .hole, _ => rfl
termination_by structural value => value

theorem classifyAll_of_not_isScoped
    (other : Text) :
    (values : List Value) →
    (∀ o ∈ classifyAll source scopeId values,
      o.isScoped = false) →
    classifyAll source other values =
      classifyAll source scopeId values
  | [], _ => rfl
  | value :: rest, hPlain => by
      rw [classifyAll, List.forall_mem_cons] at hPlain
      rw [classifyAll, classifyAll,
        classify_of_not_isScoped other value hPlain.1,
        classifyAll_of_not_isScoped other rest hPlain.2]
termination_by structural values => values

end

end Styles

end ComponentLoader
