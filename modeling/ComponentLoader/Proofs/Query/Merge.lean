import Mathlib.Tactic
import ComponentLoader.Proofs.Query.RoundTrip

/-
  Requests that are extended more than once.  What was
  written for a query is read back before more parameters
  are merged in, so that it makes no difference whether
  parameters come one after another or all at once.

  Main declarations:
    * `Request.extend_eq`
    * `Request.parse_encode`
    * `Request.extend_encode`
-/

------------------------------------------------------------
-- Extended Requests
------------------------------------------------------------

namespace ComponentLoader

namespace Query

/-
  Merging is associative, also in the order of keys.  Only
  the query in the middle must not have a key twice.
-/
theorem merge_assoc
    {q : Query}
    (hDistinct : (Dict.keys q.params).Nodup)
    (first last : Query) :
    (first.merge q).merge last =
      first.merge (q.merge last) := by
  unfold merge
  rw [Dict.merge_assoc hDistinct]

end Query

namespace Request

/- A request is extended by reading and writing it. -/
theorem extend_eq
    (request : Text)
    (extra : Query) :
    extend request extra =
      ((parse request).withParams extra).render :=
  rfl

/- What was encoded is read back. -/
theorem parse_encode
    {path : Text}
    (hPath : '?' ∉ path)
    (existing : Option Text)
    {extra : Query}
    (hExtra : Query.Image.Params extra.params) :
    parse (encode path existing extra) =
      { path := path
        query := (queryOf existing).merge extra } := by
  unfold encode
  apply parse_render_of_params
  · exact hPath
  · exact Query.Image.params_merge
      (params_queryOf existing) hExtra.roots

/-
  Encoding parameters and then others gives the same
  request as encoding both merged, whatever the path is
  written with before.  The first ones come from a query
  string; the others may be any at all.
-/
theorem extend_encode
    {path : Text}
    (hPath : '?' ∉ path)
    (existing : Option Text)
    (written : Text)
    (extra : Query) :
    extend (encode path existing (Query.parse written))
        extra =
      encode path existing
        ((Query.parse written).merge extra) := by
  have hWritten := Query.Image.params_parse written
  calc
    extend (encode path existing (Query.parse written)) extra
      = render
          { path := path
            query :=
              ((queryOf existing).merge
                (Query.parse written)).merge extra } := by
        rw [extend_eq, parse_encode hPath existing hWritten]
        rfl
    _ = render
          { path := path
            query :=
              (queryOf existing).merge
                ((Query.parse written).merge extra) } := by
        rw [Query.merge_assoc hWritten.distinct]
    _ = encode path existing
          ((Query.parse written).merge extra) :=
        rfl

/-
  A path with a query of its own, a key written in three
  ways, and parameters that no query string gives.
-/
theorem extend_encode_sample :
    '?' ∉ "./s.css".toList ∧
      extend
          (encode "./s.css".toList
            (some "module&a=0?".toList)
            (Query.parse "a[b]=1&a=2&a[]=3".toList))
          (Query.ofEntries
            [([], .list []),
              ("module".toList, .repeated [.map []])]) =
        encode "./s.css".toList
          (some "module&a=0?".toList)
          ((Query.parse "a[b]=1&a=2&a[]=3".toList).merge
            (Query.ofEntries
              [([], .list []),
                ("module".toList, .repeated [.map []])])) := by
  have hPath : '?' ∉ "./s.css".toList := by
    decide
  exact ⟨hPath, extend_encode hPath _ _ _⟩

end Request

end ComponentLoader
