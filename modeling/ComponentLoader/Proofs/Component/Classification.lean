import Mathlib.Tactic
import ComponentLoader.Proofs.Component.Styles
import ComponentLoader.Proofs.Script.Equality
import ComponentLoader.Script.Parser

/-
  The classification of styles, stated on the script.

  A style is looked for in the expression itself and, if it
  is an array, in its items.  Whether the outcome is scoped
  or changed depends on the styles found there alone, and
  whatever is not a style is written as it stands.

  Main declarations:
    * `Literal.Describes` and `Literal.SaysScoped`
    * `Styles.Reaches`
    * `Styles.IsStyle`
    * `Styles.mem_imports_iff`
    * `Styles.Written`
    * `Styles.classifies_ofExpr`
-/

------------------------------------------------------------
-- Styles In A Script
------------------------------------------------------------

namespace ComponentLoader

namespace Script

/- Whether an expression is a string, or imports one. -/
def Expr.IsPath
    (e : Expr)
    (path : Text) : Prop :=
  (∃ span, e = .str span (some path)) ∨ e.Imports path

theorem Expr.stylePath?_eq_some_iff
    {e : Expr}
    {path : Text} :
    e.stylePath? = some path ↔ e.IsPath path := by
  unfold IsPath
  rw [← importPath?_eq_some_iff]
  cases e with
  | str span value => simp [stylePath?, importPath?, callOf?]
  | _ => simp [stylePath?]

end Script

namespace Literal

/-
  Whether a literal is a descriptor of the style at a path:
  the last entry named as a style pairs it with the path.
-/
structure Describes
    (l : Literal)
    (path : Text) : Prop where
  descriptor : l.isStyleDescriptor = true
  style : ∃ span name value,
    l.lastNamed? styleName = some (.pair span name value) ∧
      value.IsPath path

/-
  Whether the last entry named as the flag pairs it with
  the literal `true`.
-/
def SaysScoped
    (l : Literal) : Prop :=
  ∃ span name value,
    l.lastNamed? scopedName =
      some (.pair span name (.bool value true))

theorem stylePath?_eq_some_iff
    {l : Literal}
    {path : Text} :
    l.stylePath? = some path ↔
      ∃ span name value,
        l.lastNamed? styleName =
            some (.pair span name value) ∧
          value.IsPath path := by
  unfold stylePath?
  cases l.lastNamed? styleName with
  | none => simp
  | some entry =>
      cases entry with
      | other span name role => simp
      | pair span name value =>
          rw [Script.Expr.stylePath?_eq_some_iff]
          constructor
          · intro hPath
            exact ⟨span, name, value, rfl, hPath⟩
          · rintro ⟨_, _, other, hEq, hPath⟩
            cases hEq
            exact hPath

theorem describes_iff
    {l : Literal}
    {path : Text} :
    l.Describes path ↔
      l.isStyleDescriptor = true ∧
        l.stylePath? = some path := by
  rw [stylePath?_eq_some_iff]
  constructor
  · intro hDescribes
    exact ⟨hDescribes.descriptor, hDescribes.style⟩
  · rintro ⟨hDescriptor, hStyle⟩
    exact ⟨hDescriptor, hStyle⟩

theorem saysScoped_iff
    {l : Literal} :
    l.saysScoped = true ↔ l.SaysScoped := by
  unfold saysScoped SaysScoped
  constructor
  · intro hScoped
    split at hScoped
    · next span name value flag hLast =>
        subst hScoped
        exact ⟨span, name, value, hLast⟩
    · exact absurd hScoped Bool.false_ne_true
  · rintro ⟨span, name, value, hLast⟩
    rw [hLast]

end Literal

namespace Styles

/- Whether going through arrays leads to an expression. -/
inductive Reaches :
    Script.Expr → Script.Expr → Prop where
  | self
      (e : Script.Expr) :
      Reaches e e
  | item
      {span : Span}
      {elements : List Script.Element}
      {inner e : Script.Expr}
      (hMem : .item inner ∈ elements)
      (hInner : Reaches inner e) :
      Reaches (.array span elements) e

/-
  Whether an expression is a style by itself: a path, or a
  descriptor of one, whatever its flag.
-/
inductive IsStyle : Script.Expr → Prop where
  | path
      {e : Script.Expr}
      {path : Text}
      (hPath : e.IsPath path) :
      IsStyle e
  | descriptor
      {l : Literal}
      {path : Text}
      (hDescribes : l.Describes path) :
      IsStyle (.object l.span l.entries)

------------------------------------------------------------
-- Imports Of Styles
------------------------------------------------------------

/- Whether an expression by itself makes an import. -/
inductive Makes : Script.Expr → Import → Prop where
  | path
      {e : Script.Expr}
      {path : Text}
      (hPath : e.IsPath path) :
      Makes e { path := path, isScoped := false }
  | descriptor
      {l : Literal}
      {path : Text}
      (hDescribes : l.Describes path) :
      Makes (.object l.span l.entries)
        { path := path, isScoped := l.saysScoped }

theorem isStyle_iff
    {e : Script.Expr} :
    IsStyle e ↔ ∃ i, Makes e i := by
  constructor
  · rintro (hPath | hDescribes)
    · exact ⟨_, .path hPath⟩
    · exact ⟨_, .descriptor hDescribes⟩
  · rintro ⟨i, hPath | hDescribes⟩
    · exact .path hPath
    · exact .descriptor hDescribes

/- What a literal is a descriptor of is what it imports. -/
theorem mem_descriptorImports_iff
    {l : Literal}
    {i : Import} :
    i ∈ descriptorImports l ↔
      l.Describes i.path ∧ i.isScoped = l.saysScoped := by
  rw [Literal.describes_iff]
  unfold descriptorImports
  cases hPath : l.stylePath? with
  | none => simp
  | some path =>
      by_cases hDescriptor : l.isStyleDescriptor = true
      · rcases List.exists_mem_of_ne_nil _
          (styles_ne_nil hPath) with ⟨entry, hEntry⟩
        simp only [hDescriptor, if_true, List.mem_map]
        constructor
        · rintro ⟨_, _, rfl⟩
          exact ⟨⟨trivial, rfl⟩, rfl⟩
        · rcases i with ⟨path', isScoped⟩
          rintro ⟨⟨_, hEq⟩, rfl⟩
          rw [Option.some.injEq] at hEq
          exact ⟨entry, hEntry, by rw [hEq]⟩
      · simp [hDescriptor]

/- An object makes imports as a descriptor alone. -/
theorem makes_object_iff
    {span : Span}
    {entries : List Script.Entry}
    {i : Import} :
    Makes (.object span entries) i ↔
      i ∈ descriptorImports
        { span := span, entries := entries } := by
  rw [mem_descriptorImports_iff]
  constructor
  · intro hMakes
    cases hMakes with
    | path hPath =>
        rcases hPath with ⟨_, hEq⟩ | ⟨_, _, _, hEq⟩
        · cases hEq
        · cases hEq
    | descriptor hDescribes => exact ⟨hDescribes, rfl⟩
  · rcases i with ⟨path, isScoped⟩
    rintro ⟨hDescribes, hScoped⟩
    simp only at hDescribes hScoped
    subst hScoped
    exact Makes.descriptor hDescribes

/- Whatever is no object makes the import of its path. -/
theorem makes_iff_of_not_object
    {e : Script.Expr}
    (hOther : ∀ span entries, e ≠ .object span entries)
    {i : Import} :
    Makes e i ↔
      i ∈ e.stylePath?.toList.map fun path =>
        ({ path := path, isScoped := false } : Import) := by
  simp only [List.mem_map, Option.mem_toList,
    Script.Expr.stylePath?_eq_some_iff]
  constructor
  · intro hMakes
    cases hMakes with
    | path hPath => exact ⟨_, hPath, rfl⟩
    | descriptor _ => exact absurd rfl (hOther _ _)
  · rintro ⟨path, hPath, rfl⟩
    exact .path hPath

/- An array makes imports through its items alone. -/
theorem not_makes_array
    {span : Span}
    {elements : List Script.Element}
    {i : Import} :
    ¬ Makes (.array span elements) i := by
  rw [makes_iff_of_not_object (by simp)]
  simp [Script.Expr.stylePath?, Script.Expr.importPath?,
    Script.Expr.callOf?]

/- Only arrays lead to anything but themselves. -/
theorem exists_reaches_iff
    {e : Script.Expr}
    (hOther : ∀ span elements, e ≠ .array span elements)
    {P : Script.Expr → Prop} :
    (∃ r, Reaches e r ∧ P r) ↔ P e := by
  constructor
  · rintro ⟨r, hReaches, hP⟩
    cases hReaches with
    | self => exact hP
    | item _ _ => exact absurd rfl (hOther _ _)
  · intro hP
    exact ⟨e, .self e, hP⟩

/- The import of an expression without parts. -/
theorem mem_imports_of_leaf
    {e : Script.Expr}
    (hObject : ∀ span entries, e ≠ .object span entries)
    (hArray : ∀ span elements, e ≠ .array span elements)
    (hImports :
      imports e =
        e.stylePath?.toList.map fun path =>
          { path := path, isScoped := false })
    {i : Import} :
    i ∈ imports e ↔ ∃ r, Reaches e r ∧ Makes r i := by
  rw [exists_reaches_iff hArray,
    makes_iff_of_not_object hObject, hImports]

mutual

/- The imports are those of the styles that are reached. -/
theorem mem_imports_iff
    {i : Import} :
    (e : Script.Expr) →
      (i ∈ imports e ↔ ∃ r, Reaches e r ∧ Makes r i)
  | .object span entries => by
      rw [exists_reaches_iff (by simp), makes_object_iff]
      rfl
  | .array span elements => by
      rw [imports, mem_allImports_iff elements]
      constructor
      · rintro ⟨inner, hMem, r, hReaches, hMakes⟩
        exact ⟨r, .item hMem hReaches, hMakes⟩
      · rintro ⟨r, hReaches, hMakes⟩
        cases hReaches with
        | self => exact absurd hMakes not_makes_array
        | item hMem hInner =>
            exact ⟨_, hMem, r, hInner, hMakes⟩
  | .str _ _ => mem_imports_of_leaf (by simp) (by simp) rfl
  | .name _ _ => mem_imports_of_leaf (by simp) (by simp) rfl
  | .num _ _ => mem_imports_of_leaf (by simp) (by simp) rfl
  | .bool _ _ => mem_imports_of_leaf (by simp) (by simp) rfl
  | .call _ _ _ =>
      mem_imports_of_leaf (by simp) (by simp) rfl
  | .paren _ _ => mem_imports_of_leaf (by simp) (by simp) rfl
  | .form _ _ => mem_imports_of_leaf (by simp) (by simp) rfl
termination_by structural e => e

theorem mem_allImports_iff
    {i : Import} :
    (elements : List Script.Element) →
      (i ∈ allImports elements ↔
        ∃ inner, .item inner ∈ elements ∧
          ∃ r, Reaches inner r ∧ Makes r i)
  | [] => by simp [allImports]
  | first :: rest => by
      rw [allImports, List.mem_append,
        mem_itemImports_iff first, mem_allImports_iff rest]
      constructor
      · rintro (⟨inner, rfl, hFound⟩ | ⟨inner, hMem, hFound⟩)
        · exact ⟨inner, by simp, hFound⟩
        · exact ⟨inner, List.mem_cons_of_mem first hMem,
            hFound⟩
      · rintro ⟨inner, hMem, hFound⟩
        rcases List.mem_cons.mp hMem with hEq | hMem
        · exact Or.inl ⟨inner, hEq.symm, hFound⟩
        · exact Or.inr ⟨inner, hMem, hFound⟩
termination_by structural elements => elements

theorem mem_itemImports_iff
    {i : Import} :
    (element : Script.Element) →
      (i ∈ itemImports element ↔
        ∃ inner, element = .item inner ∧
          ∃ r, Reaches inner r ∧ Makes r i)
  | .item value => by
      rw [itemImports, mem_imports_iff value]
      simp
  | .hole => by simp [itemImports]
  | .spread dots value => by simp [itemImports]
termination_by structural element => element

end

------------------------------------------------------------
-- Verdicts
------------------------------------------------------------

variable {source : Source}
variable {scopeId : Text}

/- Styles change if any style is reached. -/
theorem changed_classify_iff
    (source : Source)
    (scopeId : Text)
    (e : Script.Expr) :
    (classify source scopeId (Value.ofExpr e)).changed =
        true ↔
      ∃ r, Reaches e r ∧ IsStyle r := by
  have hShows :
      (classify source scopeId (Value.ofExpr e)).Shows
        scopeId (imports e) :=
    shows_classify e
  rw [hShows.changed, Bool.not_eq_true',
    List.isEmpty_eq_false_iff_exists_mem]
  simp only [mem_imports_iff, isStyle_iff]
  constructor
  · rintro ⟨i, r, hReaches, hMakes⟩
    exact ⟨r, hReaches, i, hMakes⟩
  · rintro ⟨r, hReaches, i, hMakes⟩
    exact ⟨i, r, hReaches, hMakes⟩

/- Styles are scoped if a descriptor that says so is. -/
theorem isScoped_classify_iff
    (source : Source)
    (scopeId : Text)
    (e : Script.Expr) :
    (classify source scopeId (Value.ofExpr e)).isScoped =
        true ↔
      ∃ l path, Reaches e (.object l.span l.entries) ∧
        Literal.Describes l path ∧ l.SaysScoped := by
  have hShows :
      (classify source scopeId (Value.ofExpr e)).Shows
        scopeId (imports e) :=
    shows_classify e
  rw [hShows.isScoped, List.any_eq_true]
  constructor
  · rintro ⟨i, hMem, hScoped⟩
    rcases (mem_imports_iff e).mp hMem with
      ⟨r, hReaches, hMakes⟩
    cases hMakes with
    | path _ => exact absurd hScoped Bool.false_ne_true
    | @descriptor l path hDescribes =>
        exact ⟨l, path, hReaches, hDescribes,
          Literal.saysScoped_iff.mp hScoped⟩
  · rintro ⟨l, path, hReaches, hDescribes, hScoped⟩
    exact ⟨_, (mem_imports_iff e).mpr
        ⟨_, hReaches, .descriptor hDescribes⟩,
      Literal.saysScoped_iff.mpr hScoped⟩

------------------------------------------------------------
-- What Is Written
------------------------------------------------------------

/-
  How an entry of a descriptor is written: as the import if
  it is named as a style, and else as it stands.
-/
inductive EntryWritten
    (source : Source)
    (style : Node) :
    Script.Entry → PropNode → Prop where
  | style
      {entry : Script.Entry}
      (hName : entry.name? = some styleName) :
      EntryWritten source style entry
        (.keyValue styleName style)
  | other
      {entry : Script.Entry}
      (hName : entry.name? ≠ some styleName) :
      EntryWritten source style entry
        (.source (source.slice entry.span))

mutual

/- How an expression is written as styles. -/
inductive Written
    (source : Source)
    (scopeId : Text) :
    Script.Expr → Node → Prop where
  | kept
      {e : Script.Expr}
      (hNone : ¬ ∃ r, Reaches e r ∧ IsStyle r) :
      Written source scopeId e
        (.source (source.slice e.span))
  | path
      {e : Script.Expr}
      {path : Text}
      (hPath : e.IsPath path) :
      Written source scopeId e
        (.object
          [.keyValue scopedName (.bool false),
            .keyValue styleName (importOf path none)])
  | descriptor
      {l : Literal}
      {path : Text}
      {scope : Option Text}
      {props : List PropNode}
      (hDescribes : l.Describes path)
      (hScope : ∀ id,
        scope = some id ↔ id = scopeId ∧ l.SaysScoped)
      (hProps :
        List.Forall₂
          (EntryWritten source (importOf path scope))
          l.entries props) :
      Written source scopeId (.object l.span l.entries)
        (.object props)
  | array
      {span : Span}
      {elements : List Script.Element}
      {nodes : List Node}
      (hSome : ∃ r, Reaches (.array span elements) r ∧
        IsStyle r)
      (hElements : AllWritten source scopeId elements nodes) :
      Written source scopeId (.array span elements)
        (.array nodes)

/- How the elements of an array are written, in order. -/
inductive AllWritten
    (source : Source)
    (scopeId : Text) :
    List Script.Element → List Node → Prop where
  | nil :
      AllWritten source scopeId [] []
  | cons
      {element : Script.Element}
      {node : Node}
      {elements : List Script.Element}
      {nodes : List Node}
      (hFirst : ElementWritten source scopeId element node)
      (hRest : AllWritten source scopeId elements nodes) :
      AllWritten source scopeId (element :: elements)
        (node :: nodes)

/- How an element of an array is written. -/
inductive ElementWritten
    (source : Source)
    (scopeId : Text) :
    Script.Element → Node → Prop where
  | hole :
      ElementWritten source scopeId .hole .hole
  | spread
      (dots : Nat)
      (value : Script.Expr) :
      ElementWritten source scopeId (.spread dots value)
        (.source (source.slice
          { lo := dots, hi := value.span.hi }))
  | item
      {value : Script.Expr}
      {node : Node}
      (hValue : Written source scopeId value node) :
      ElementWritten source scopeId (.item value) node

end

/- What is kept of an expression is its code. -/
theorem kept_ofExpr
    (source : Source)
    (e : Script.Expr) :
    kept source (Value.ofExpr e) =
      { node := .source (source.slice e.span)
        isScoped := false
        changed := false } := by
  cases e with
  | str span value => cases value <;> rfl
  | _ => rfl

/- An expression is kept if it leads to no style. -/
theorem written_of_kept
    {e : Script.Expr}
    (hKept :
      classify source scopeId (Value.ofExpr e) =
        kept source (Value.ofExpr e)) :
    Written source scopeId e
      (classify source scopeId (Value.ofExpr e)).node := by
  have hNone :
      ¬ ∃ r, Reaches e r ∧ IsStyle r := by
    rw [← changed_classify_iff source scopeId, hKept,
      kept_ofExpr]
    exact Bool.false_ne_true
  rw [hKept, kept_ofExpr]
  exact .kept hNone

/- An expression without parts is a path, or it is kept. -/
theorem written_of_stylePath?
    {e : Script.Expr}
    (hValue :
      classify source scopeId (Value.ofExpr e) =
        match e.stylePath? with
        | some path => ofPath path
        | none => kept source (Value.ofExpr e)) :
    Written source scopeId e
      (classify source scopeId (Value.ofExpr e)).node := by
  cases hPath : e.stylePath? with
  | none =>
      rw [hPath] at hValue
      exact written_of_kept hValue
  | some path =>
      rw [hPath] at hValue
      rw [hValue]
      exact .path (Script.Expr.stylePath?_eq_some_iff.mp hPath)

theorem forall₂_descriptorProps
    (source : Source)
    (style : Node)
    (l : Literal) :
    List.Forall₂ (EntryWritten source style) l.entries
      (descriptorProps source style l) := by
  rw [descriptorProps, List.forall₂_map_right_iff,
    List.forall₂_same]
  intro entry _
  split
  · next hName => exact .style hName
  · next hName => exact .other hName

/- A descriptor keeps its entries, all but its styles. -/
theorem written_object
    (l : Literal) :
    Written source scopeId (.object l.span l.entries)
      (classify source scopeId
        (Value.ofExpr (.object l.span l.entries))).node := by
  have hValue :
      classify source scopeId
          (Value.ofExpr (.object l.span l.entries)) =
        if l.isStyleDescriptor then
          ofDescriptor source scopeId
            (Value.ofExpr (.object l.span l.entries)) l
            (Dict.ofEntries (Value.fields l.entries))
        else
          kept source
            (Value.ofExpr (.object l.span l.entries)) := rfl
  by_cases hDescriptor : l.isStyleDescriptor = true
  · rw [if_pos hDescriptor] at hValue
    unfold ofDescriptor at hValue
    simp only [l.path?_style, l.bool?_scoped] at hValue
    cases hPath : l.stylePath? with
    | none =>
        rw [hPath] at hValue
        exact written_of_kept hValue
    | some path =>
        rw [hPath] at hValue
        rw [hValue]
        refine .descriptor
          (Literal.describes_iff.mpr ⟨hDescriptor, hPath⟩)
          (fun id => ?_) (forall₂_descriptorProps source _ l)
        rw [← Literal.saysScoped_iff,
          Option.ite_none_right_eq_some, Option.some.injEq]
        exact ⟨fun h => ⟨h.2.symm, h.1⟩,
          fun h => ⟨h.2, h.1.symm⟩⟩
  · rw [if_neg hDescriptor] at hValue
    exact written_of_kept hValue

mutual

/- Every expression is written as its styles ask for. -/
theorem written_classify :
    (e : Script.Expr) →
      Written source scopeId e
        (classify source scopeId (Value.ofExpr e)).node
  | .object span entries =>
      written_object { span := span, entries := entries }
  | .array span elements => by
      have hAll := written_classifyAll elements
      have hValue :
          classify source scopeId
              (Value.ofExpr (.array span elements)) =
            ofItems source
              (Value.ofExpr (.array span elements))
              (classifyAll source scopeId
                (Value.ofElements elements)) := rfl
      unfold ofItems at hValue
      split at hValue
      · have hSome := (changed_classify_iff source scopeId
          (.array span elements)).mp (by rw [hValue])
        rw [hValue]
        exact .array hSome hAll
      · exact written_of_kept hValue
  | .str _ (some _) => written_of_stylePath? rfl
  | .str _ none => written_of_stylePath? rfl
  | .name _ _ => written_of_stylePath? rfl
  | .num _ _ => written_of_stylePath? rfl
  | .bool _ _ => written_of_stylePath? rfl
  | .call _ _ _ => written_of_stylePath? rfl
  | .paren _ _ => written_of_stylePath? rfl
  | .form _ _ => written_of_stylePath? rfl
termination_by structural e => e

theorem written_classifyAll :
    (elements : List Script.Element) →
      AllWritten source scopeId elements
        ((classifyAll source scopeId
          (Value.ofElements elements)).map fun o => o.node)
  | [] => .nil
  | first :: rest =>
      .cons (written_element first) (written_classifyAll rest)
termination_by structural elements => elements

theorem written_element :
    (element : Script.Element) →
      ElementWritten source scopeId element
        (classify source scopeId
          (Value.ofElement element)).node
  | .item value => .item (written_classify value)
  | .hole => .hole
  | .spread dots value => .spread dots value
termination_by structural element => element

end

------------------------------------------------------------
-- The Classification
------------------------------------------------------------

/- An outcome that is told by the styles that are reached. -/
structure Outcome.Classifies
    (o : Outcome)
    (source : Source)
    (scopeId : Text)
    (e : Script.Expr) : Prop where
  isScoped :
    o.isScoped = true ↔
      ∃ l path, Reaches e (.object l.span l.entries) ∧
        Literal.Describes l path ∧ l.SaysScoped
  changed :
    o.changed = true ↔ ∃ r, Reaches e r ∧ IsStyle r
  written : Written source scopeId e o.node
  changed_of_isScoped :
    o.isScoped = true → o.changed = true

theorem classifies_ofExpr
    (source : Source)
    (scopeId : Text)
    (e : Script.Expr) :
    (classify source scopeId
      (Value.ofExpr e)).Classifies source scopeId e where
  isScoped := isScoped_classify_iff source scopeId e
  changed := changed_classify_iff source scopeId e
  written := written_classify e
  changed_of_isScoped := changed_of_isScoped

namespace Sample

/- A scoped descriptor whose path has half a surrogate. -/
def text : Text :=
  "(\x7b styles: \x7b scoped: true, style: \"\\ud800\" \x7d \x7d)".toList

def descriptor : Literal :=
  { span := { lo := 12, hi := 45 }
    entries :=
      [.pair { lo := 14, hi := 26 } (some scopedName)
          (.bool { lo := 22, hi := 26 } true),
        .pair { lo := 28, hi := 43 } (some styleName)
          (.str { lo := 35, hi := 43 } none)] }

def module : Script.Module where
  items :=
    [.mk
      (.expression
        (.paren { lo := 1, hi := 48 }
          (.object { lo := 2, hi := 47 }
            [.pair { lo := 4, hi := 45 }
              (some "styles".toList)
              (.object descriptor.span
                descriptor.entries)])))
      []]

end Sample

/-
  A string with half a surrogate is no path, so that a
  descriptor of it is kept, although it says that it is
  scoped.
-/
theorem classify_of_half_surrogate :
    Script.parse (Dialect.ofPath "test.ts".toList)
        Sample.text = .ok Sample.module ∧
      Sample.descriptor.isStyleDescriptor = true ∧
      Sample.descriptor.SaysScoped ∧
      (∃ span name string value,
        Sample.descriptor.lastNamed? styleName =
          some (.pair span name (.str string value))) ∧
      (classify (Source.ofText Sample.text) "abc-0".toList
          (Value.ofExpr (.object Sample.descriptor.span
            Sample.descriptor.entries))).isScoped = false ∧
      (classify (Source.ofText Sample.text) "abc-0".toList
          (Value.ofExpr (.object Sample.descriptor.span
            Sample.descriptor.entries))).changed = false := by
  refine ⟨?_, by decide, ⟨_, _, _, rfl⟩, ?_, by decide,
    by decide⟩
  · decide +kernel
  · exact ⟨_, _, _, none, rfl⟩

end Styles

end ComponentLoader
