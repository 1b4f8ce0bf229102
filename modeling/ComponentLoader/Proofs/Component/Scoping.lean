import Mathlib.Tactic
import ComponentLoader.Proofs.Component.Styles
import ComponentLoader.Proofs.Script.Equality
import ComponentLoader.Script.Parser

/-
  Scopes of a component.  Its scope id, its template and
  its styles are generated apart from one another, and all
  of them are for the scope or none is: a style is imported
  in the scope if its own descriptor says so, the template
  if any style is, and the scope id is written just then.

  Main declarations:
    * `Resource.MadeFor`
    * `Literal.Imports`
    * `Literal.styleImports`
    * `Component.Fragments.ofLiteral`
    * `Component.Fragments.Coherent`
    * `Component.Fragments.coherent_ofLiteral`
-/

------------------------------------------------------------
-- Requests For A Scope
------------------------------------------------------------

namespace ComponentLoader

namespace Resource

/- The key of the mark of a scope in a query. -/
def scopedKey : Text :=
  "scoped".toList

theorem get?_scoped_query
    (kind : Kind)
    (path : Text)
    (scope : Option Text) :
    (query kind path scope).get? scopedKey =
      scope.map fun _ => .text "true".toList := by
  unfold query
  cases kind <;> cases language? path <;> cases scope <;> rfl

/-
  A request for a path that is made in a scope or in none.
  The id and the mark of the scope are set for it if there
  is one, and otherwise are those that the path may have.
-/
structure MadeFor
    (kind : Kind)
    (path : Text)
    (scope : Option Text)
    (request : Text) : Prop where
  text : request = Request.extend path (query kind path scope)
  id_set :
    (query kind path scope).get? idKey =
      scope.map Query.Value.text
  scoped_set :
    (query kind path scope).get? scopedKey =
      scope.map fun _ => .text "true".toList
  id_read :
    (Request.parse request).query.get? idKey =
      (scope.map Query.Value.text).or
        ((Request.parse path).query.get? idKey)
  scoped_read :
    (Request.parse request).query.get? scopedKey =
      (scope.map fun _ => .text "true".toList).or
        ((Request.parse path).query.get? scopedKey)

theorem madeFor_request
    (kind : Kind)
    (path : Text)
    (scope : Option Text) :
    MadeFor kind path scope (request kind path scope) where
  text := rfl
  id_set := get?_id_query kind path scope
  scoped_set := get?_scoped_query kind path scope
  id_read := get?_id_request kind path scope
  scoped_read := by
    rw [get?_request, get?_scoped_query]

end Resource

------------------------------------------------------------
-- What A Literal Imports
------------------------------------------------------------

/- Whether an entry is paired with an import of a path. -/
def Script.Entry.Imports
    (entry : Script.Entry)
    (path : Text) : Prop :=
  ∃ span name value,
    entry = .pair span name value ∧ value.Imports path

/- The path of an import is read off the value of an entry. -/
theorem Script.Entry.importPath?_ofEntry
    {entry : Script.Entry}
    {path : Text} :
    (Value.ofEntry entry).importPath? = some path ↔
      entry.Imports path := by
  cases entry with
  | other span name role =>
      constructor
      · intro hPath
        exact absurd hPath (by simp [Value.ofEntry,
          Value.importPath?])
      · rintro ⟨_, _, _, hEntry, _⟩
        exact absurd hEntry (by simp)
  | pair span name value =>
      rw [Value.ofEntry, Script.Expr.importPath?_ofExpr,
        Script.Expr.importPath?_eq_some_iff]
      constructor
      · intro hImports
        exact ⟨span, name, value, rfl, hImports⟩
      · rintro ⟨_, _, _, hEntry, hImports⟩
        rw [Script.Entry.pair.injEq] at hEntry
        rw [hEntry.2.2]
        exact hImports

namespace Literal

/-
  Whether a literal imports a path under a name: the last
  entry with the name does.
-/
def Imports
    (l : Literal)
    (name path : Text) : Prop :=
  ∃ entry,
    l.lastNamed? name = some entry ∧ entry.Imports path

/- The imports of styles in the last entry with a name. -/
def styleImports
    (l : Literal)
    (name : Text) : List Styles.Import :=
  match l.lastNamed? name with
  | some entry => Styles.entryImports entry
  | none => []

end Literal

------------------------------------------------------------
-- What Is Generated For A Literal
------------------------------------------------------------

namespace Component

namespace Fragments

/- The entries generated for a literal. -/
def ofLiteral
    (source : Source)
    (scopeId : Text)
    (names : Names)
    (l : Literal) : Fragments :=
  ofParams source scopeId names (Params.ofLiteral l names)

/- The scope of the template. -/
def scope
    (f : Fragments)
    (scopeId : Text) : Option Text :=
  if f.isScoped then some scopeId else none

section Generated

variable {names : Names}

/- A component is scoped if one of its styles is. -/
theorem isScoped_ofLiteral
    (hNames : names.Avoid markNames)
    (source : Source)
    (scopeId : Text)
    (l : Literal) :
    (ofLiteral source scopeId names l).isScoped =
      (l.styleImports names.styles).any fun i =>
        i.isScoped := by
  unfold ofLiteral ofParams Literal.styleImports
  simp only [Params.styles_ofLiteral hNames]
  cases l.lastNamed? names.styles with
  | none => rfl
  | some entry =>
      exact (Styles.shows_entry source scopeId entry).isScoped

/- Styles are generated if there are any to import. -/
theorem styles_ofLiteral
    (hNames : names.Avoid markNames)
    (source : Source)
    (scopeId : Text)
    (l : Literal) :
    (l.styleImports names.styles = [] ∧
        (ofLiteral source scopeId names l).styles = none) ∨
      ∃ node,
        l.styleImports names.styles ≠ [] ∧
          (ofLiteral source scopeId names l).styles =
            some (.keyValue names.styles node) ∧
          node.requests =
            (l.styleImports names.styles).map
              (Styles.Import.request scopeId) := by
  unfold ofLiteral ofParams Literal.styleImports
  simp only [Params.styles_ofLiteral hNames]
  cases l.lastNamed? names.styles with
  | none => exact Or.inl ⟨rfl, rfl⟩
  | some entry =>
      have hShows := Styles.shows_entry source scopeId entry
      by_cases hNone : Styles.entryImports entry = []
      · left
        refine ⟨hNone, ?_⟩
        simp [hShows.changed, hNone]
      · right
        refine ⟨_, hNone, ?_, hShows.requests⟩
        simp [hShows.changed, hNone]

/- The template is read off the last entry of its name. -/
theorem template_eq
    (hNames : names.Avoid markNames)
    (source : Source)
    (scopeId : Text)
    (l : Literal) :
    (ofLiteral source scopeId names l).template =
      (l.lastNamed? names.template).bind fun entry =>
        templateOf
          ((ofLiteral source scopeId names l).scope scopeId)
          (Value.ofEntry entry) := by
  have hBind :
      (ofLiteral source scopeId names l).template =
        (Params.ofLiteral l names).template.bind
          (templateOf
            ((ofLiteral source scopeId names l).scope
              scopeId)) := rfl
  rw [hBind, Params.template_ofLiteral hNames l,
    Option.bind_map]
  rfl

/- The template is generated if it is an import. -/
theorem template_ofLiteral
    (hNames : names.Avoid markNames)
    (source : Source)
    (scopeId : Text)
    (l : Literal)
    (t : Text × PropNode) :
    (ofLiteral source scopeId names l).template = some t ↔
      ∃ path,
        l.Imports names.template path ∧
          t.1 =
            Resource.request .template path
              ((ofLiteral source scopeId names l).scope
                scopeId) ∧
          t.2 = .spread (.resource t.1) := by
  rw [template_eq hNames, Option.bind_eq_some_iff]
  constructor
  · rintro ⟨entry, hLast, hTemplate⟩
    rcases templateOf_eq_some_iff.mp hTemplate with
      ⟨path, hPath, rfl⟩
    have hImports :=
      Script.Entry.importPath?_ofEntry.mp hPath
    exact ⟨path, ⟨entry, hLast, hImports⟩, rfl, rfl⟩
  · rintro ⟨path, ⟨entry, hLast, hImports⟩, hText, hSpread⟩
    refine ⟨entry, hLast, ?_⟩
    apply templateOf_eq_some_iff.mpr
    refine ⟨path,
      Script.Entry.importPath?_ofEntry.mpr hImports, ?_⟩
    rw [← hText, ← hSpread]

------------------------------------------------------------
-- Coherence
------------------------------------------------------------

/-
  Entries generated for a literal that agree on its scope.
  The verdict is shown by the scope id; a template that is
  an import is compiled, and no other; the template is
  requested for the verdict, a style for its own flag; and
  a verdict in favour of the scope has a style behind it.
-/
structure Coherent
    (f : Fragments)
    (l : Literal)
    (names : Names)
    (scopeId : Text) : Prop where
  marked :
    f.isScoped = true ↔
      f.scopeId =
        some (.keyValue scopeIdName
          (.str ("data-v-".toList ++ scopeId)))
  unmarked : f.isScoped = false ↔ f.scopeId = none
  rewritten :
    (∃ t, f.template = some t) ↔
      ∃ path, l.Imports names.template path
  compiled :
    (∃ t, f.template = some t) ↔
      f.compiled = some (.keyValue compiledName (.bool true))
  plain : f.template = none ↔ f.compiled = none
  template :
    ∀ t, f.template = some t →
      t.2 = .spread (.resource t.1) ∧
        ∃ path,
          l.Imports names.template path ∧
            Resource.MadeFor .template path
              (if f.isScoped then some scopeId else none) t.1
  styles :
    ∀ prop, f.styles = some prop →
      ∃ node,
        prop = .keyValue names.styles node ∧
          List.Forall₂
            (fun i request =>
              Resource.MadeFor .style i.path
                (if i.isScoped then some scopeId else none)
                request)
            (l.styleImports names.styles) node.requests
  verdict :
    f.isScoped = true →
      ∃ node,
        f.styles = some (.keyValue names.styles node) ∧
          ∃ path, ∃ request ∈ node.requests,
            Resource.MadeFor .style path (some scopeId)
              request

/- The requests of imports are made for their scopes. -/
theorem forall₂_madeFor
    (scopeId : Text)
    (is : List Styles.Import) :
    List.Forall₂
      (fun i request =>
        Resource.MadeFor .style i.path
          (if i.isScoped then some scopeId else none)
          request)
      is (is.map (Styles.Import.request scopeId)) := by
  rw [List.forall₂_map_right_iff, List.forall₂_same]
  intro i _
  exact Resource.madeFor_request .style i.path
    (i.scope scopeId)

/- A verdict in favour of the scope has a style behind it. -/
theorem exists_style_of_isScoped
    (hNames : names.Avoid markNames)
    {source : Source}
    {scopeId : Text}
    {l : Literal}
    (hScoped :
      (ofLiteral source scopeId names l).isScoped = true) :
    ∃ node,
      (ofLiteral source scopeId names l).styles =
          some (.keyValue names.styles node) ∧
        ∃ path, ∃ request ∈ node.requests,
          Resource.MadeFor .style path (some scopeId)
            request := by
  rw [isScoped_ofLiteral hNames, List.any_eq_true] at hScoped
  rcases hScoped with ⟨i, hMem, hFlag⟩
  rcases styles_ofLiteral hNames source scopeId l with
    ⟨hNone, _⟩ | ⟨node, _, hStyles, hRequests⟩
  · exact absurd hMem (by simp [hNone])
  · refine ⟨node, hStyles, i.path,
      Styles.Import.request scopeId i, ?_, ?_⟩
    · rw [hRequests]
      exact List.mem_map_of_mem hMem
    · have hScope : i.scope scopeId = some scopeId := by
        rw [Styles.Import.scope, if_pos hFlag]
      have hMade := Resource.madeFor_request .style i.path
        (i.scope scopeId)
      rw [hScope] at hMade
      rw [Styles.Import.request, hScope]
      exact hMade

theorem coherent
    (hNames : names.Avoid markNames)
    (source : Source)
    (scopeId : Text)
    (l : Literal) :
    (ofLiteral source scopeId names l).Coherent l names
      scopeId := by
  have hScopeId :
      (ofLiteral source scopeId names l).scopeId =
        if (ofLiteral source scopeId names l).isScoped then
          some (.keyValue scopeIdName
            (.str (scopeAttribute scopeId)))
        else
          none :=
    scopeId_ofParams source scopeId names _
  have hCompiled :
      (ofLiteral source scopeId names l).compiled =
        (ofLiteral source scopeId names l).template.map
          fun _ => .keyValue compiledName (.bool true) := rfl
  have hTemplate := template_ofLiteral hNames source scopeId l
  constructor
  case marked =>
    rw [hScopeId]
    cases (ofLiteral source scopeId names l).isScoped with
    | false =>
        exact iff_of_false Bool.false_ne_true
          (Option.some_ne_none _).symm
    | true => exact iff_of_true rfl rfl
  case unmarked =>
    rw [hScopeId]
    cases (ofLiteral source scopeId names l).isScoped with
    | false => exact iff_of_true rfl rfl
    | true =>
        exact iff_of_false
          (fun hEq => Bool.false_ne_true hEq.symm)
          (Option.some_ne_none _)
  case rewritten =>
    constructor
    · rintro ⟨t, hT⟩
      rcases (hTemplate t).mp hT with ⟨path, hImports, _⟩
      exact ⟨path, hImports⟩
    · rintro ⟨path, hImports⟩
      let request := Resource.request .template path
        ((ofLiteral source scopeId names l).scope scopeId)
      have hT := (hTemplate
        (request, .spread (.resource request))).mpr
          ⟨path, hImports, rfl, rfl⟩
      exact ⟨_, hT⟩
  case compiled =>
    rw [hCompiled]
    cases (ofLiteral source scopeId names l).template with
    | none => simp
    | some t => simp
  case plain =>
    rw [hCompiled]
    cases (ofLiteral source scopeId names l).template with
    | none => simp
    | some t => simp
  case template =>
    intro t hT
    rcases (hTemplate t).mp hT with
      ⟨path, hImports, hText, hSpread⟩
    refine ⟨hSpread, path, hImports, ?_⟩
    rw [hText]
    exact Resource.madeFor_request .template path _
  case styles =>
    intro prop hProp
    rcases styles_ofLiteral hNames source scopeId l with
      ⟨_, hStyles⟩ | ⟨node, _, hStyles, hRequests⟩
    · rw [hStyles] at hProp
      exact absurd hProp (by simp)
    · rw [hStyles, Option.some.injEq] at hProp
      refine ⟨node, hProp.symm, ?_⟩
      rw [hRequests]
      exact forall₂_madeFor scopeId _
  case verdict =>
    intro hScoped
    exact exists_style_of_isScoped hNames hScoped

/- Without a scoped style nothing depends on the scope id. -/
theorem ofParams_of_not_isScoped
    {source : Source}
    {scopeId : Text}
    {params : Params}
    (hPlain :
      (ofParams source scopeId names params).isScoped =
        false)
    (other : Text) :
    ofParams source other names params =
      ofParams source scopeId names params := by
  have hStyles :
      params.styles.map (Styles.classify source other) =
        params.styles.map
          (Styles.classify source scopeId) := by
    cases hValue : params.styles with
    | none => rfl
    | some value =>
        have hVerdict :
            (Styles.classify source scopeId value).isScoped =
              false := by
          simpa [ofParams, hValue] using hPlain
        rw [Option.map_some, Option.map_some,
          Styles.classify_of_not_isScoped other value
            hVerdict]
  have hScoped :
      ((params.styles.map
        (Styles.classify source scopeId)).any fun o =>
          o.isScoped) = false := hPlain
  unfold ofParams
  simp only [hStyles, hScoped, Bool.false_eq_true, if_false]

/-
  What is generated for a literal agrees on its scope, and
  is the same for every scope id if there is no scope.
-/
theorem coherent_ofLiteral
    (hNames : names.Avoid markNames)
    (source : Source)
    (scopeId : Text)
    (l : Literal) :
    (ofLiteral source scopeId names l).Coherent l names
        scopeId ∧
      ((ofLiteral source scopeId names l).isScoped = false →
        ∀ other,
          ofLiteral source other names l =
            ofLiteral source scopeId names l) := by
  constructor
  · exact coherent hNames source scopeId l
  · intro hPlain other
    exact ofParams_of_not_isScoped hPlain other

end Generated

------------------------------------------------------------
-- Literals With And Without A Scope
------------------------------------------------------------

namespace Sample

def names : Names :=
  { template := "template".toList
    styles := "styles".toList }

theorem avoid_names :
    names.Avoid markNames := by
  constructor
  · decide
  · decide
  · decide

/- A template, a scoped style, a hole and a plain style. -/
def scopedLiteral : Literal :=
  let span := Span.nowhere
  { span := span
    entries :=
      [.pair span (some names.template)
        (.call span (.name span importName)
          [.item (.str span (some "t.html?id=7".toList))]),
        .pair span (some names.styles)
          (.array span
            [.item (.object span
              [.pair span (some scopedName) (.bool span true),
                .pair span (some styleName)
                  (.str span (some "a.css".toList))]),
              .hole,
              .item (.str span (some "b.css".toList))])] }

end Sample

theorem coherent_ofLiteral_sample :
    Sample.names.Avoid markNames ∧
      (ofLiteral (Source.ofText []) "abc-0".toList
          Sample.names Sample.scopedLiteral).isScoped =
        true ∧
      (ofLiteral (Source.ofText []) "abc-0".toList
          Sample.names Sample.scopedLiteral).Coherent
        Sample.scopedLiteral Sample.names "abc-0".toList := by
  have hCoherent := coherent_ofLiteral Sample.avoid_names
    (Source.ofText []) "abc-0".toList Sample.scopedLiteral
  exact ⟨Sample.avoid_names, by decide, hCoherent.1⟩

namespace Sample

/- An import whose string has half a surrogate. -/
def text : Text :=
  "(\x7b template: require(\"\\ud800\") \x7d)".toList

def entry : Script.Entry :=
  .pair { lo := 4, hi := 31 } (some names.template)
    (.call { lo := 14, hi := 31 }
      (.name { lo := 14, hi := 21 } importName)
      [.item (.str { lo := 22, hi := 30 } none)])

def literal : Literal :=
  { span := { lo := 2, hi := 33 }, entries := [entry] }

def module : Script.Module where
  items :=
    [.mk
      (.expression
        (.paren { lo := 1, hi := 34 }
          (.object literal.span literal.entries)))
      []]

end Sample

/-
  A string with half a surrogate has no value, so a call
  of the import function with such a string, and with
  nothing else, is not taken for a template.
-/
theorem template_of_half_surrogate :
    Script.parse (Dialect.ofPath "test.ts".toList)
        Sample.text = .ok Sample.module ∧
      Sample.literal.lastNamed? Sample.names.template =
        some Sample.entry ∧
      (∃ span name call callee argument value,
        Sample.entry =
          .pair span name
            (.call call (.name callee importName)
              [.item (.str argument value)])) ∧
      Sample.names.Avoid markNames ∧
      (ofLiteral (Source.ofText Sample.text)
          "abc-0".toList Sample.names
          Sample.literal).template = none := by
  refine ⟨?_, rfl, ?_, Sample.avoid_names, rfl⟩
  · decide +kernel
  · exact ⟨_, _, _, _, _, none, rfl⟩

end Fragments

end Component

end ComponentLoader
