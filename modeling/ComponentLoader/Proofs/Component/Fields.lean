import Mathlib.Tactic
import ComponentLoader.Proofs.Component.Requests

/-
  What the request of a resource is read as, whatever its
  path is written with: the path itself, the fields of the
  resource, and behind them what the path already had.

  Main declarations:
    * `Path.extension?_eq_some_iff`
    * `Resource.fields`
    * `Resource.Decodes`
    * `Resource.decodes_request`
-/

------------------------------------------------------------
-- Extensions
------------------------------------------------------------

namespace ComponentLoader

namespace Path

/- An extension follows the last dot, which is not first. -/
theorem splitExtension_eq_some_iff
    {name ext : Text} :
    splitExtension name = some ext ↔
      ∃ stem, stem ≠ [] ∧ name = stem ++ '.' :: ext ∧
        '.' ∉ ext := by
  constructor
  · intro hExt
    by_cases hDot : '.' ∈ name.reverse
    · rcases List.eq_append_cons_of_mem hDot with
        ⟨after, before, hName, hAfter⟩
      rw [splitExtension, hName,
        Text.splitOnce_append after before hAfter] at hExt
      simp only [List.isEmpty_iff, Option.ite_none_left_eq_some,
        Option.some.injEq] at hExt
      rcases hExt with ⟨hBefore, rfl⟩
      refine ⟨before.reverse, by simpa using hBefore, ?_,
        by simpa using hAfter⟩
      have hReverse := congrArg List.reverse hName
      simpa using hReverse
    · rw [splitExtension, Text.splitOnce_eq_none hDot]
        at hExt
      exact absurd hExt (by simp)
  · rintro ⟨stem, hStem, rfl, hExt⟩
    have hName : (stem ++ '.' :: ext).reverse =
        ext.reverse ++ '.' :: stem.reverse := by
      simp
    rw [splitExtension, hName,
      Text.splitOnce_append _ _ (by simpa using hExt)]
    simp [hStem]

/- The extension of a path is that of its file name. -/
theorem extension?_eq_some_iff
    {path ext : Text} :
    extension? path = some ext ↔
      ∃ stem, stem ≠ [] ∧
        fileName? path = some (stem ++ '.' :: ext) ∧
        '.' ∉ ext := by
  rw [extension?, Option.bind_eq_some_iff]
  simp only [splitExtension_eq_some_iff]
  constructor
  · rintro ⟨name, hName, stem, hStem, rfl, hExt⟩
    exact ⟨stem, hStem, hName, hExt⟩
  · rintro ⟨stem, hStem, hName, hExt⟩
    exact ⟨_, hName, stem, hStem, rfl, hExt⟩

end Path

------------------------------------------------------------
-- Fields Of Resources
------------------------------------------------------------

namespace Resource

/- The language is an extension that is not empty. -/
theorem language?_eq_some_iff
    {path ext : Text} :
    language? path = some ext ↔
      ext ≠ [] ∧
        Path.extension? (Request.splitText path).1 =
          some ext := by
  unfold language?
  cases Path.extension? (Request.splitText path).1 with
  | none => simp
  | some found =>
      simp only [List.isEmpty_iff,
        Option.ite_none_left_eq_some, Option.some.injEq]
      constructor
      · rintro ⟨hSome, rfl⟩
        exact ⟨hSome, rfl⟩
      · rintro ⟨hSome, rfl⟩
        exact ⟨hSome, rfl⟩

/- The fields of a resource in the order they are set. -/
def fields
    (kind : Kind)
    (lang scope : Option Text) : Dict Query.Value :=
  [("vue".toList, .flag),
      ("type".toList, .text kind.name)] ++
    lang.toList.map (fun ext => ("lang".toList, .text ext)) ++
    (match kind with
      | .style => [("index".toList, .text "0".toList)]
      | .template => []) ++
    scope.toList.flatMap fun id =>
      [("id".toList, .text id),
        ("scoped".toList, .text "true".toList)]

theorem params_query_eq
    (kind : Kind)
    (path : Text)
    (scope : Option Text) :
    (query kind path scope).params =
      fields kind (language? path) scope := by
  unfold query
  cases kind <;> cases language? path <;> cases scope <;> rfl

/- The query that a path is written with. -/
def ownQuery
    (path : Text) : Query :=
  Request.queryOf (Request.splitText path).2

------------------------------------------------------------
-- Reading Requests
------------------------------------------------------------

/-
  What a request for a resource is read as.  A field that
  the path has as well is set where the path has it.
-/
structure Decodes
    (kind : Kind)
    (path : Text)
    (scope : Option Text)
    (r : Text) : Prop where
  path_eq :
    (Request.splitText r).1 = (Request.splitText path).1
  language : ∀ ext,
    language? path = some ext ↔
      ext ≠ [] ∧
        ∃ stem, stem ≠ [] ∧
          Path.fileName? (Request.splitText path).1 =
            some (stem ++ '.' :: ext) ∧
          '.' ∉ ext
  values : ∀ key,
    (Request.parse r).query.get? key =
      (Dict.get? (fields kind (language? path) scope)
        key).or ((ownQuery path).get? key)
  keys :
    Dict.keys (Request.parse r).query.params =
      Dict.keys (ownQuery path).params ++
        (Dict.keys (fields kind (language? path)
          scope)).filter
          (· ∉ Dict.keys (ownQuery path).params)

/- Every request is read with the fields of its resource. -/
theorem decodes_request
    (kind : Kind)
    (path scopeId : Text)
    (isScoped : Bool) :
    Decodes kind path (if isScoped then some scopeId else none)
      (request kind path
        (if isScoped then some scopeId else none)) := by
  generalize (if isScoped then some scopeId else none) = scope
  have hParse := parse_request kind path scope
  exact
    { path_eq := congrArg Request.path hParse
      language := fun ext => by
        rw [language?_eq_some_iff, Path.extension?_eq_some_iff]
      values := fun key => by
        rw [get?_request, Query.get?, params_query_eq]
        rfl
      keys := by
        have hDistinct :=
          (params_query kind path scope).distinct
        rw [params_query_eq] at hDistinct
        rw [hParse, ← Dict.keys_merge hDistinct,
          ← params_query_eq]
        rfl }

end Resource

end ComponentLoader
