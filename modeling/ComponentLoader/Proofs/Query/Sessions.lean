import Mathlib.Tactic
import ComponentLoader.Proofs.Query.Merge
import ComponentLoader.Query.Printer

/-
  Queries that are written to step by step.

  All a step does is to merge the entries that it writes
  into the query, so that what a whole session leaves is
  given by its writes: the last one to a key says what is
  there, and the first one where it stands.

  Main declarations:
    * `Distinct`
    * `Step.run`
    * `Step.run_eq`
    * `params_after`
    * `Account`
    * `sessions_in_order`
-/

------------------------------------------------------------
-- Steps
------------------------------------------------------------

namespace ComponentLoader

namespace Query

/- Whether a query has no key twice, as none ever has. -/
def Distinct
    (q : Query) : Prop :=
  (Dict.keys q.params).Nodup

/- Something that is done to a query. -/
inductive Step where
  /- Write a key without a value. -/
  | flag (key : Text)
  /- Write a text. -/
  | set (key value : Text)
  /- Write any value. -/
  | insert (key : Text) (value : Value)
  /- Write all parameters of another query. -/
  | merge (other : Query)

namespace Step

/- What a step hands back, and the query after it. -/
def run
    (q : Query) : Step → Option Value × Query
  | flag key => (none, q.flag key)
  | set key value => (none, q.set key value)
  | insert key value => q.exchange key value
  | merge other => (none, q.merge other)

/- The entries that a step writes, in order. -/
def writes : Step → Dict Value
  | flag key => [(key, .flag)]
  | set key value => [(key, .text value)]
  | insert key value => [(key, value)]
  | merge other => other.params

/- Every step merges what it writes into the query. -/
theorem run_eq
    (q : Query)
    (step : Step) :
    (step.run q).2.params =
      Dict.merge q.params step.writes := by
  cases step with
  | flag key => rfl
  | set key value => rfl
  | insert key value =>
      simp only [run, exchange, Dict.exchange_eq]
      rfl
  | merge other => rfl

/- A value that is inserted takes the place of another. -/
theorem run_insert
    (q : Query)
    (key : Text)
    (value : Value) :
    ((insert key value).run q).1 = q.get? key := by
  simp only [run, exchange, Dict.exchange_eq, get?]

end Step

------------------------------------------------------------
-- Sessions
------------------------------------------------------------

/- The query after some steps, one after another. -/
def after
    (q : Query)
    (steps : List Step) : Query :=
  steps.foldl (fun q step => (step.run q).2) q

/- The entries that steps write, in order. -/
def written
    (steps : List Step) : Dict Value :=
  steps.flatMap Step.writes

/- The value that steps write to a key last, if any. -/
def lastWritten?
    (steps : List Step)
    (key : Text) : Option Value :=
  Dict.get? (written steps).reverse key

/- A session merges all that its steps write. -/
theorem params_after
    (q : Query)
    (steps : List Step) :
    (q.after steps).params =
      Dict.merge q.params (written steps) := by
  induction steps generalizing q with
  | nil => rfl
  | cons step rest ih =>
      have hRest : (q.after (step :: rest)).params =
          ((step.run q).2.after rest).params := rfl
      rw [hRest, ih, step.run_eq, written, written,
        List.flatMap_cons]
      exact List.foldl_append.symm

theorem get?_after
    (q : Query)
    (steps : List Step)
    (key : Text) :
    (q.after steps).get? key =
      (lastWritten? steps key).or (q.get? key) := by
  unfold get? lastWritten?
  rw [params_after, Dict.get?_merge_reverse]

/- The pieces of the string of a query for one of its keys. -/
def piecesOf
    (q : Query)
    (key : Text) : List Text :=
  ((q.get? key).map (Value.pieces (escape key))).getD []

/- A query is written key by key, in the order of its keys. -/
theorem render_eq
    {q : Query}
    (hDistinct : q.Distinct) :
    q.render =
      Text.join ['&']
        ((Dict.keys q.params).flatMap q.piecesOf) := by
  unfold render Dict.keys
  rw [List.flatMap_map]
  congr 1
  apply List.flatMap_congr
  intro entry hMem
  have hGet := Dict.get?_of_mem hDistinct hMem
  simp [piecesOf, get?, hGet]

/-
  What is left of a query and the steps of a session: every
  value is the last one written, and it stands where its
  key was, or else where it was written first.
-/
structure Account
    (q : Query)
    (steps : List Step) : Prop where
  distinct : (q.after steps).Distinct
  value :
    ∀ key,
      (q.after steps).get? key =
        (lastWritten? steps key).or (q.get? key)
  returned :
    ∀ before key value rest,
      steps = before ++ .insert key value :: rest →
        ((Step.insert key value).run (q.after before)).1 =
          (lastWritten? before key).or (q.get? key)
  order :
    Dict.keys (q.after steps).params =
      Dict.keys q.params ++
        ((Dict.keys (written steps)).filter
          (· ∉ Dict.keys q.params)).eraseDups
  text :
    (q.after steps).render =
      Text.join ['&']
        ((Dict.keys (q.after steps).params).flatMap
          (q.after steps).piecesOf)

theorem account
    {q : Query}
    (hDistinct : q.Distinct)
    (steps : List Step) :
    Account q steps := by
  have hAfter : (q.after steps).Distinct := by
    unfold Distinct
    rw [params_after]
    exact Dict.nodup_keys_merge hDistinct _
  exact
    { distinct := hAfter
      value := get?_after q steps
      returned := by
        intro before key value rest _
        rw [Step.run_insert, get?_after]
      order := by
        rw [params_after, Dict.keys_merge_eq]
      text := render_eq hAfter }

------------------------------------------------------------
-- Merging
------------------------------------------------------------

/- The steps that insert the entries of a query. -/
def inserts
    (q : Query) : List Step :=
  q.params.map fun entry => .insert entry.1 entry.2

theorem written_inserts
    (q : Query) :
    written q.inserts = q.params := by
  unfold written inserts
  rw [List.flatMap_map]
  exact List.flatMap_singleton' _

theorem after_inserts
    (q other : Query) :
    q.after other.inserts = q.merge other := by
  have hParams := params_after q other.inserts
  rw [written_inserts] at hParams
  exact congrArg Query.mk hParams

/- A query merged into itself, or with the empty one. -/
theorem merge_self
    {q : Query}
    (hDistinct : q.Distinct) :
    q.merge q = q :=
  congrArg Query.mk (Dict.merge_self hDistinct)

theorem empty_merge
    {q : Query}
    (hDistinct : q.Distinct) :
    empty.merge q = q :=
  congrArg Query.mk (Dict.ofEntries_of_nodup hDistinct)

/-
  Every session leaves what its writes say.  Merging is one
  of a few of them, so that it can be done in any grouping
  or entry by entry; also the order of keys is then the
  same.
-/
theorem sessions_in_order
    {q : Query}
    (hDistinct : q.Distinct) :
    (∀ steps, Account q steps) ∧
      (∀ first last : Query,
        (first.merge q).merge last =
          first.merge (q.merge last)) ∧
      empty.merge q = q ∧
      q.merge empty = q ∧
      q.merge q = q ∧
      ∀ other : Query,
        other.merge q = other.after q.inserts := by
  refine ⟨account hDistinct, merge_assoc hDistinct,
    empty_merge hDistinct, rfl, merge_self hDistinct, ?_⟩
  intro other
  exact (after_inserts other q).symm

namespace Sample

/- A query with two keys. -/
def start : Query :=
  ofEntries
    [("a".toList, .text "1".toList),
      ("b".toList, .text "2".toList)]

/- Steps that write old keys and new ones. -/
def steps : List Step :=
  [ .insert "c".toList (.list []),
    .set "a".toList "9".toList,
    .merge (ofEntries
      [("d".toList, .flag),
        ("c".toList, .text "0".toList),
        ("b".toList, .flag)]),
    .flag "e".toList ]

end Sample

theorem sessions_in_order_sample :
    Sample.start.Distinct ∧
      Account Sample.start Sample.steps ∧
      (Sample.start.after Sample.steps).render =
        "a=9&b&c=0&d&e".toList ∧
      Sample.start.merge Sample.start = Sample.start := by
  have hDistinct : Sample.start.Distinct :=
    Dict.nodup_keys_ofEntries _
  rcases sessions_in_order hDistinct with
    ⟨hAccount, _, _, _, hSelf, _⟩
  exact ⟨hDistinct, hAccount Sample.steps, by decide, hSelf⟩

end Query

end ComponentLoader
