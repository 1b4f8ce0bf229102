import Mathlib.Tactic
import ComponentLoader.Component.Basic
import ComponentLoader.Proofs.Query.RoundTrip

/-
  The requests among the entries generated for a
  component.  Each asks for a resource, either without a
  scope or in the scope of the component, and what it says
  is read back from its text.

  Main declarations:
    * `Node.requests`
    * `Resource.parse_request`
    * `Resource.get?_request`
    * `Resource.RequestedFor`
    * `Component.generates_of_mem_slots`
    * `Component.Generates.requestedFor`
-/

------------------------------------------------------------
-- Queries Of Resources
------------------------------------------------------------

namespace ComponentLoader

namespace Resource

/- The key of the scope id in a query. -/
def idKey : Text :=
  "id".toList

/- A text under a plain key keeps the invariant. -/
theorem params_set
    {q : Query}
    (hParams : Query.Image.Params q.params)
    (key : Text)
    (hKey : key ≠ [])
    (hWhole :
      Query.Key.split key = { root := key, segments := [] })
    (value : Text) :
    Query.Image.Params (q.set key value).params :=
  Query.Image.params_insert hParams
    (Query.Image.root_of_isLeaf hKey hWhole rfl)

theorem params_setIf
    {q : Query}
    (hParams : Query.Image.Params q.params)
    (key : Text)
    (hKey : key ≠ [])
    (hWhole :
      Query.Key.split key = { root := key, segments := [] })
    (value : Option Text) :
    Query.Image.Params (setIf q key value).params := by
  cases value with
  | none => exact hParams
  | some value => exact params_set hParams key hKey hWhole value

/- The parameters of a resource can be written. -/
theorem params_query
    (kind : Kind)
    (path : Text)
    (scope : Option Text) :
    Query.Image.Params (query kind path scope).params := by
  have hEmpty : Query.Image.Params Query.empty.params :=
    { distinct := by simp [Query.empty, Dict.keys]
      roots := by simp [Query.empty] }
  have hFlag :
      Query.Image.Params
        (Query.empty.flag "vue".toList).params :=
    Query.Image.params_insert hEmpty
      (Query.Image.root_of_isLeaf (by decide) (by decide) rfl)
  have hType := params_set hFlag "type".toList
    (by decide) (by decide) kind.name
  have hBase := params_setIf hType "lang".toList
    (by decide) (by decide) (language? path)
  have hIndexed := params_set hBase "index".toList
    (by decide) (by decide) "0".toList
  have hScoped :
      ∀ q : Query, Query.Image.Params q.params →
        ∀ id, Query.Image.Params
          ((q.set "id".toList id).set
            "scoped".toList "true".toList).params := by
    intro q hParams id
    have hId := params_set hParams "id".toList
      (by decide) (by decide) id
    exact params_set hId _ (by decide) (by decide) _
  unfold query
  cases kind with
  | template =>
      cases scope with
      | none => exact hBase
      | some id => exact hScoped _ hBase id
  | style =>
      cases scope with
      | none => exact hIndexed
      | some id => exact hScoped _ hIndexed id

/- A scope id in the query is the one that was given. -/
theorem get?_id_query
    (kind : Kind)
    (path : Text)
    (scope : Option Text) :
    (query kind path scope).get? idKey =
      scope.map Query.Value.text := by
  unfold query
  cases kind <;> cases language? path <;> cases scope <;> rfl

/- The request of a resource is read as it was meant. -/
theorem parse_request
    (kind : Kind)
    (path : Text)
    (scope : Option Text) :
    Request.parse (request kind path scope) =
      (Request.parse path).withParams
        (query kind path scope) := by
  have hText : request kind path scope =
      ((Request.parse path).withParams
        (query kind path scope)).render := rfl
  rw [hText]
  refine Request.parse_render_of_params
    (Request.not_mem_path_parse path) ?_
  exact Query.Image.params_merge
    (Request.params_query_parse path)
    (params_query kind path scope).roots

/-
  What a request is read with under a key: what is set for
  the resource, or else what the path already had.
-/
theorem get?_request
    (kind : Kind)
    (path : Text)
    (scope : Option Text)
    (key : Text) :
    (Request.parse (request kind path scope)).query.get?
        key =
      ((query kind path scope).get? key).or
        ((Request.parse path).query.get? key) := by
  rw [parse_request]
  exact Dict.get?_merge
    (params_query kind path scope).distinct key

/-
  The scope id that a request is read with: the one that
  was given, or else what the path already had.
-/
theorem get?_id_request
    (kind : Kind)
    (path : Text)
    (scope : Option Text) :
    (Request.parse (request kind path scope)).query.get?
        idKey =
      (scope.map Query.Value.text).or
        ((Request.parse path).query.get? idKey) := by
  rw [get?_request, get?_id_query]

end Resource

------------------------------------------------------------
-- Requests In Generated Code
------------------------------------------------------------

mutual

/- The requests in generated code, in order. -/
def Node.requests : Node → List Text
  | .str _ => []
  | .bool _ => []
  | .resource request => [request]
  | .object props => PropNode.allRequests props
  | .array items => Node.allRequests items
  | .hole => []
  | .source _ => []
termination_by structural n => n

def Node.allRequests : List Node → List Text
  | [] => []
  | n :: ns => n.requests ++ Node.allRequests ns
termination_by structural ns => ns

/- The requests in a generated entry. -/
def PropNode.requests : PropNode → List Text
  | .keyValue _ value => value.requests
  | .spread value => value.requests
  | .source _ => []
termination_by structural p => p

def PropNode.allRequests : List PropNode → List Text
  | [] => []
  | p :: ps => p.requests ++ PropNode.allRequests ps
termination_by structural ps => ps

end

theorem Node.allRequests_eq
    (ns : List Node) :
    Node.allRequests ns = ns.flatMap Node.requests := by
  induction ns with
  | nil => rfl
  | cons n ns ih =>
      rw [Node.allRequests, List.flatMap_cons, ih]

theorem PropNode.allRequests_eq
    (ps : List PropNode) :
    PropNode.allRequests ps =
      ps.flatMap PropNode.requests := by
  induction ps with
  | nil => rfl
  | cons p ps ih =>
      rw [PropNode.allRequests, List.flatMap_cons, ih]

/-
  A request for a resource without a scope, which has the
  id that its path had, or in a scope, which has its id.
-/
def Resource.RequestedFor
    (scopeId request : Text) : Prop :=
  ∃ kind path,
    (request = Resource.request kind path none ∧
        (Request.parse request).query.get? idKey =
          (Request.parse path).query.get? idKey) ∨
      (request = Resource.request kind path (some scopeId) ∧
        (Request.parse request).query.get? idKey =
          some (.text scopeId))

theorem Resource.requestedFor_request
    (scopeId : Text)
    (kind : Kind)
    (path : Text)
    (isScoped : Bool) :
    RequestedFor scopeId
      (request kind path
        (if isScoped then some scopeId else none)) := by
  refine ⟨kind, path, ?_⟩
  cases isScoped with
  | false =>
      exact Or.inl ⟨rfl, get?_id_request kind path none⟩
  | true =>
      exact Or.inr
        ⟨rfl, get?_id_request kind path (some scopeId)⟩

------------------------------------------------------------
-- Requests Of Styles
------------------------------------------------------------

namespace Styles

variable {source : Source}
variable {scopeId : Text}

/- The requests in code are made for a scope. -/
def RequestsFor
    (scopeId : Text)
    (n : Node) : Prop :=
  ∀ r ∈ n.requests, Resource.RequestedFor scopeId r

theorem requestsFor_kept
    (value : Value) :
    RequestsFor scopeId (kept source value).node := by
  intro r hMem
  cases value <;>
    exact absurd hMem (by simp [kept, Node.requests])

theorem requestsFor_ofPath
    (path : Text) :
    RequestsFor scopeId (ofPath path).node := by
  intro r hMem
  simp only [ofPath, importOf, Node.requests,
    PropNode.allRequests, PropNode.requests, List.nil_append,
    List.append_nil, List.mem_singleton] at hMem
  rw [hMem]
  exact Resource.requestedFor_request scopeId .style path
    false

/- A descriptor has the requests of its style alone. -/
theorem requestsFor_descriptorProps
    {style : Node}
    (hStyle : RequestsFor scopeId style)
    (l : Literal) :
    RequestsFor scopeId
      (.object (descriptorProps source style l)) := by
  intro r hMem
  rw [Node.requests, PropNode.allRequests_eq,
    List.mem_flatMap] at hMem
  rcases hMem with ⟨p, hP, hMem⟩
  rcases List.mem_map.mp hP with ⟨entry, _, rfl⟩
  split at hMem
  · exact hStyle r hMem
  · exact absurd hMem (by simp [PropNode.requests])

theorem requestsFor_ofDescriptor
    (value : Value)
    (l : Literal)
    (entries : Dict Value) :
    RequestsFor scopeId
      (ofDescriptor source scopeId value l entries).node := by
  unfold ofDescriptor
  simp only
  split
  · exact requestsFor_kept value
  · next path _ =>
      refine requestsFor_descriptorProps ?_ l
      intro r hMem
      rw [importOf, Node.requests, List.mem_singleton] at hMem
      rw [hMem]
      exact Resource.requestedFor_request scopeId .style path _

theorem requestsFor_ofValue
    (value : Value) :
    RequestsFor scopeId
      (ofValue source scopeId value).node := by
  unfold ofValue
  split
  · split
    · exact requestsFor_ofDescriptor _ _ _
    · exact requestsFor_kept _
  · split
    · exact requestsFor_ofPath _
    · exact requestsFor_kept _

mutual

/- The requests of styles are made for their scope. -/
theorem requestsFor_classify :
    (value : Value) →
    RequestsFor scopeId
      (classify source scopeId value).node
  | .seq span items => by
      rw [classify, ofItems]
      split
      · intro r hMem
        rw [Node.requests, Node.allRequests_eq,
          List.mem_flatMap] at hMem
        rcases hMem with ⟨n, hN, hMem⟩
        rcases List.mem_map.mp hN with ⟨o, hO, rfl⟩
        exact requestsFor_classifyAll items o hO r hMem
      · exact requestsFor_kept _
  | .bool _ _ => requestsFor_ofValue _
  | .num _ _ => requestsFor_ofValue _
  | .str _ _ => requestsFor_ofValue _
  | .map _ _ _ => requestsFor_ofValue _
  | .expr _ => requestsFor_ofValue _
  | .prop _ => requestsFor_ofValue _
  | .element _ => requestsFor_ofValue _
  | .hole => requestsFor_ofValue _
termination_by structural value => value

theorem requestsFor_classifyAll :
    (values : List Value) →
    ∀ o ∈ classifyAll source scopeId values,
      RequestsFor scopeId o.node
  | [] => by simp [classifyAll]
  | value :: rest => by
      intro o hMem
      rw [classifyAll, List.mem_cons] at hMem
      rcases hMem with rfl | hRest
      · exact requestsFor_classify value
      · exact requestsFor_classifyAll rest o hRest
termination_by structural values => values

end

end Styles

------------------------------------------------------------
-- Entries Of Components
------------------------------------------------------------

namespace Component

/- A template is an import of its path, in the scope. -/
theorem templateOf_eq_some_iff
    {scope : Option Text}
    {value : Value}
    {t : Text × PropNode} :
    templateOf scope value = some t ↔
      ∃ path,
        value.importPath? = some path ∧
          t =
            (Resource.request .template path scope,
              .spread (.resource
                (Resource.request .template path scope))) := by
  unfold templateOf
  cases value.importPath? with
  | none => simp
  | some path =>
      simp only [Option.some.injEq, exists_eq_left']
      exact eq_comm

/- The request of the template is made for the component. -/
theorem template_fragments
    {c : Component}
    {f : File}
    {t : Text × PropNode}
    (hTemplate : (c.fragments f).template = some t) :
    Resource.RequestedFor (c.scopeId f) t.1 ∧
      t.2 = .spread (.resource t.1) := by
  simp only [fragments, Fragments.ofParams,
    Option.bind_eq_some_iff] at hTemplate
  rcases hTemplate with ⟨value, _, hTemplate⟩
  rcases templateOf_eq_some_iff.mp hTemplate with
    ⟨path, _, rfl⟩
  exact ⟨Resource.requestedFor_request (c.scopeId f)
    .template path _, rfl⟩

/- The requests of the styles are made for the component. -/
theorem styles_fragments
    {c : Component}
    {f : File}
    {prop : PropNode}
    (hStyles : (c.fragments f).styles = some prop) :
    ∃ n, prop = .keyValue f.names.styles n ∧
      Styles.RequestsFor (c.scopeId f) n := by
  simp only [fragments, Fragments.ofParams,
    Option.map_eq_some_iff] at hStyles
  rcases hStyles with ⟨o, hFilter, rfl⟩
  rcases Option.filter_eq_some_iff.mp hFilter with ⟨hO, _⟩
  rcases Option.map_eq_some_iff.mp hO with ⟨value, _, rfl⟩
  exact ⟨_, rfl, Styles.requestsFor_classify value⟩

/- The scope id is written if a style is scoped. -/
theorem scopeId_ofParams
    (source : Source)
    (scopeId : Text)
    (names : Names)
    (params : Params) :
    (Fragments.ofParams source scopeId names
        params).scopeId =
      if (Fragments.ofParams source scopeId names
          params).isScoped then
        some (.keyValue scopeIdName
          (.str (scopeAttribute scopeId)))
      else
        none := by
  have hScope :
      (Fragments.ofParams source scopeId names
          params).scopeId =
        (if (Fragments.ofParams source scopeId names
            params).isScoped then
          some scopeId
        else
          none).map fun id =>
            .keyValue scopeIdName
              (.str (scopeAttribute id)) := rfl
  rw [hScope]
  cases (Fragments.ofParams source scopeId names
      params).isScoped with
  | false => rfl
  | true => rfl

theorem scopeId_fragments
    (c : Component)
    (f : File) :
    (c.fragments f).scopeId =
      if (c.fragments f).isScoped then
        some (.keyValue scopeIdName
          (.str (scopeAttribute (c.scopeId f))))
      else
        none :=
  scopeId_ofParams f.source (c.scopeId f) f.names
    (Params.ofLiteral c.literal f.names)

/- The entries that can be generated for a component. -/
inductive Generates
    (c : Component)
    (f : File) : Text → PropNode → Prop where
  | scopeId
      (hScoped : (c.fragments f).isScoped = true) :
      Generates c f scopeIdName
        (.keyValue scopeIdName
          (.str (scopeAttribute (c.scopeId f))))
  | compiled :
      Generates c f compiledName
        (.keyValue compiledName (.bool true))
  | template
      {r : Text}
      (hRequest : Resource.RequestedFor (c.scopeId f) r) :
      Generates c f f.names.template (.spread (.resource r))
  | styles
      {n : Node}
      (hRequests : Styles.RequestsFor (c.scopeId f) n) :
      Generates c f f.names.styles
        (.keyValue f.names.styles n)
  | moduleId
      (hServer : f.settings.server = true) :
      Generates c f moduleIdName
        (.keyValue moduleIdName (.str (c.moduleId f)))
  | file :
      Generates c f fileName
        (.keyValue fileName (.str f.settings.shortPath))

theorem generates_of_mem_fragments
    {c : Component}
    {f : File}
    {name : Text}
    {prop : PropNode}
    (hMem :
      (name, prop) ∈ (c.fragments f).slots f.names) :
    c.Generates f name prop := by
  simp only [Fragments.slots, List.mem_append,
    Option.mem_toList, Option.map_eq_some_iff,
    Prod.mk.injEq] at hMem
  rcases hMem with
    ((⟨p, hP, rfl, rfl⟩ | ⟨p, hP, rfl, rfl⟩) |
      ⟨t, hT, rfl, rfl⟩) | ⟨p, hP, rfl, rfl⟩
  · rw [scopeId_fragments] at hP
    split at hP
    · next hScoped =>
        rw [Option.some.injEq] at hP
        exact hP ▸ .scopeId hScoped
    · exact absurd hP (by simp)
  · simp only [fragments, Fragments.ofParams,
      Option.map_eq_some_iff] at hP
    rcases hP with ⟨_, _, rfl⟩
    exact .compiled
  · rcases template_fragments hT with ⟨hRequest, hSpread⟩
    rw [hSpread]
    exact .template hRequest
  · rcases styles_fragments hP with ⟨n, rfl, hRequests⟩
    exact .styles hRequests

/- Nothing else is generated. -/
theorem generates_of_mem_slots
    {c : Component}
    {f : File}
    {name : Text}
    {prop : PropNode}
    (hMem : (name, prop) ∈ c.slots f) :
    c.Generates f name prop := by
  rcases List.mem_append.mp hMem with hMem | hMem
  · exact generates_of_mem_fragments hMem
  · simp only [settingSlots, stringSlot, List.mem_append,
      List.mem_ite_nil_right, List.mem_ite_nil_left,
      List.mem_singleton, Prod.mk.injEq] at hMem
    rcases hMem with ⟨hServer, rfl, rfl⟩ | ⟨_, rfl, rfl⟩
    · exact .moduleId hServer
    · exact .file

/- What an entry with a value is generated for. -/
theorem Generates.keyValue_cases
    {c : Component}
    {f : File}
    {slot key : Text}
    {value : Node}
    (hGenerates : c.Generates f slot (.keyValue key value)) :
    (key = scopeIdName ∧
        value = .str (scopeAttribute (c.scopeId f))) ∨
      (key = moduleIdName ∧ f.settings.server = true ∧
        value = .str (c.moduleId f)) ∨
      key = f.names.styles ∨ key = compiledName ∨
      key = fileName := by
  cases hGenerates with
  | scopeId _ => exact Or.inl ⟨rfl, rfl⟩
  | moduleId hServer =>
      exact Or.inr (Or.inl ⟨rfl, hServer, rfl⟩)
  | styles _ => exact Or.inr (Or.inr (Or.inl rfl))
  | compiled =>
      exact Or.inr (Or.inr (Or.inr (Or.inl rfl)))
  | file => exact Or.inr (Or.inr (Or.inr (Or.inr rfl)))

/- Every request generated is made for the component. -/
theorem Generates.requestedFor
    {c : Component}
    {f : File}
    {name r : Text}
    {prop : PropNode}
    (hGenerates : c.Generates f name prop)
    (hMem : r ∈ prop.requests) :
    Resource.RequestedFor (c.scopeId f) r := by
  cases hGenerates with
  | template hRequest =>
      rw [PropNode.requests, Node.requests,
        List.mem_singleton] at hMem
      exact hMem ▸ hRequest
  | styles hRequests => exact hRequests r hMem
  | scopeId _ =>
      exact absurd hMem
        (by simp [PropNode.requests, Node.requests])
  | compiled =>
      exact absurd hMem
        (by simp [PropNode.requests, Node.requests])
  | moduleId _ =>
      exact absurd hMem
        (by simp [PropNode.requests, Node.requests])
  | file =>
      exact absurd hMem
        (by simp [PropNode.requests, Node.requests])

end Component

end ComponentLoader
