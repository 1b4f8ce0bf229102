import Mathlib.Tactic
import ComponentLoader.Proofs.Component.Identity
import ComponentLoader.Proofs.Component.Placement
import ComponentLoader.Proofs.Loader.Outcomes

/-
  How the components of a file are numbered and named.

  The decorated classes are numbered in the order of their
  addresses, and what is generated for a component is
  identified by its number.  That this is the order in
  which the classes stand depends on the namespaces inside
  an item.

  Main declarations:
    * `Loader.Numbered`
    * `Loader.tableOf_of_nodup`
    * `Loader.numbered_compile`
-/

------------------------------------------------------------
-- Numbered Components
------------------------------------------------------------

namespace ComponentLoader

namespace Loader

/- What is known of the components of a file. -/
structure Numbered
    (f : File)
    (m : Script.Module)
    (table : HotReload.Table) : Prop where
  /- The decorated classes, in the order they are found. -/
  found :
    Candidate.Enumerates
      (Candidate.Found f.settings.decoratorName m)
      (candidatesOf f m)
  /- When they are found in the order they stand in. -/
  document :
    m.Placed f.source →
      ((candidatesOf f m).Pairwise
          (fun c d => c.decl.lo < d.decl.lo) ↔
        Candidate.NamespacesInOrder
          f.settings.decoratorName m)
  /- Those with a literal are components. -/
  ordinals :
    ∀ c, c ∈ componentsOf f m ↔
      (candidatesOf f m)[c.ordinal]? = some c.candidate ∧
        c.candidate.call.literal? = some c.literal
  ordered :
    (componentsOf f m).Pairwise
      fun a b => a.ordinal < b.ordinal
  /- What is generated for a component has its number. -/
  identified :
    ∀ c ∈ componentsOf f m,
      c.Identified f
        (f.digest ++ ['-'] ++ Text.ofNat c.ordinal)
        (f.moduleDigest ++ ['-'] ++ Text.ofNat c.ordinal)
  named : ∀ c ∈ componentsOf f m, c.Named f
  /- The table has no other rows. -/
  table :
    ((componentsOf f m).map fun c => c.name f).Nodup →
      table =
        (componentsOf f m).map
          fun c => (c.name f, c.record f)

/- The table of components with distinct names. -/
theorem tableOf_of_nodup
    {f : File}
    {components : List Component}
    (hDistinct : (components.map fun c => c.name f).Nodup) :
    tableOf f components =
      components.map fun c => (c.name f, c.record f) := by
  refine Dict.ofEntries_of_nodup ?_
  unfold Dict.keys
  rw [List.map_map]
  exact hDistinct

/-
  The components of any file are numbered, and are known
  by their numbers and names; if the file is compiled, its
  table is the one of these components.
-/
theorem numbered_compile
    (f : File)
    (mark : Text)
    (m : Script.Module) :
    Numbered f m (tableOf f (componentsOf f m)) ∧
      ∀ result, compile? f mark m = some result →
        result.table = tableOf f (componentsOf f m) := by
  refine ⟨?_, fun _ => table_of_compile?⟩
  constructor
  case found => exact Candidate.enumerates_ofModule m
  case document => exact Candidate.pairwise_lo_iff
  case ordinals =>
    intro c
    exact Component.mem_ofCandidates_iff
  case ordered =>
    exact Component.pairwise_ordinal (candidatesOf f m)
  case identified => exact fun c _ => c.identified f
  case named => exact fun c _ => c.named f
  case table => exact tableOf_of_nodup

------------------------------------------------------------
-- A Condition That Is Searched Before Its Body
------------------------------------------------------------

namespace Condition

/- A decorator and what stands before the keyword. -/
def decorated : Text :=
  "@C({})export ".toList

def opening : Text :=
  "do\x7bnamespace N\x7b".toList

def between : Text :=
  "X\x7b\x7d\x7d\x7dwhile(function()\x7bnamespace M\x7b".toList

def closing : Text :=
  "Y\x7b\x7d\x7d\x7d)".toList

def file : File where
  source := Source.ofText
    (opening ++ decorated ++
      (Text.classKeyword ++ ' ' ::
        (between ++ decorated ++
          (Text.classKeyword ++ ' ' :: closing))))
  settings := Settings.resolve
    { path := [], root := [], request := [] }
    { decoratorName := ['C'] }
  digest := "file".toList
  moduleDigest := "module".toList

/- A class behind a number of bytes. -/
def declAt
    (n : Nat) : Script.Class where
  lo := n + 14
  decorators :=
    [{ value :=
         .call { lo := n + 2, hi := n + 7 }
           (.name { lo := n + 2, hi := n + 3 } ['C'])
           [.item
             (.object { lo := n + 4, hi := n + 6 } [])]
       hi := n + 7 }]

/- The condition comes first. -/
def tree : Script.Module where
  items :=
    [.mk .other
      [.mk (some ['M'])
          [.mk (.exportClass ['Y'] (declAt 68)) []],
        .mk (some ['N'])
          [.mk (.exportClass ['X'] (declAt 15)) []]]]

theorem size_decorated
    (before : Text) :
    Text.size (before ++ decorated) = before.size + 13 := by
  rw [Text.size_append]
  rfl

/- The decorator, with the literal in it. -/
theorem placed_decorator
    {before after : Text}
    {region : Span}
    (hLo : region.lo ≤ before.size + 2) :
    ∀ d ∈ (declAt before.size).decorators,
      d.Placed
        (Source.ofText (before ++ decorated ++ after))
        region := by
  have hCall : decorated =
      "@C({})".toList ++ "export ".toList := by decide
  have hLiteral : decorated =
      "@C(".toList ++ "{}".toList ++
        ")export ".toList := by decide
  rw [declAt, List.forall_mem_singleton]
  refine Script.Decorator.placed_call ?_
    ⟨hLo, Nat.le_refl _⟩ ?_ ?_
  · refine ⟨before ++ "@C({})".toList,
      "export ".toList ++ after, ?_, ?_⟩
    · simp only [Source.ofText, hCall, List.append_assoc]
    · rw [Text.size_append]
      exact Nat.add_comm (before.size + 6) 1
  · simp only [Span.Inside, Script.Expr.span]
    omega
  · refine ⟨before ++ "@C(".toList, "{}".toList,
      ")export ".toList ++ after, ?_, by decide, ?_⟩
    · simp only [Source.ofText, hLiteral, List.append_assoc]
    · simp only [Script.Expr.span, Source.spanOf,
        Source.ofText, Source.firstPosition,
        Text.size_append, Span.mk.injEq]
      have hSize : Text.size "@C(".toList = 3 := by decide
      have hSize' : Text.size "{}".toList = 2 := by decide
      omega

theorem placed_declAt
    (before after : Text)
    {region : Span}
    (hLo : region.lo ≤ before.size + 2)
    (hHi : before.size + 19 < region.hi) :
    (declAt before.size).Placed
      (Source.ofText
        (before ++ decorated ++
          (Text.classKeyword ++ ' ' :: after)))
      region := by
  have hSize := size_decorated before
  refine ⟨?_, ?_, placed_decorator hLo, ?_⟩
  · refine ⟨before ++ decorated,
      Text.classKeyword ++ ' ' :: after, rfl, ?_⟩
    rw [hSize]
    exact Nat.add_comm (before.size + 13) 1
  · simp only [declAt]
    omega
  · refine ⟨before ++ decorated, ' ' :: after, ?_, ?_, ?_,
      ?_, ?_⟩
    · simp only [Source.ofText, List.append_assoc]
    · have hLast : decorated.getLast? = some ' ' := by decide
      have hBlank : Text.isBoundary (some ' ') = true := by
        decide
      refine ⟨?_, hBlank⟩
      rw [List.getLast?_append, hLast]
      exact hBlank
    · simp only [declAt, Source.ofText, Source.firstPosition]
      omega
    · rw [declAt, List.forall_mem_singleton]
      simp only [Source.ofText, Source.firstPosition]
      omega
    · rw [Text.size_append, hSize]
      simp only [Source.ofText, Source.firstPosition]
      have hKeyword : Text.size Text.classKeyword = 5 := by
        decide
      omega

theorem placed_body :
    (declAt 15).Placed file.source { lo := 1, hi := 69 } :=
  placed_declAt opening _ (by decide) (by decide)

theorem placed_condition :
    (declAt 68).Placed file.source { lo := 69, hi := 100 } := by
  have hPlaced :
      (declAt 68).Placed _ { lo := 69, hi := 100 } :=
    placed_declAt
      (opening ++ decorated ++
        (Text.classKeyword ++ ' ' :: between))
      closing (by decide) (by decide)
  simpa [file, List.append_assoc] using hPlaced

theorem placed_tree :
    tree.Placed file.source := by
  apply Script.Module.placed_singleton { lo := 1, hi := 100 }
  refine ⟨trivial, [{ lo := 69, hi := 100 },
    { lo := 1, hi := 69 }], ?_, ?_, ?_, ?_, trivial⟩
  · simp [Span.Inside]
  · simp [Span.Apart, Span.Before]
  · exact Script.Namespace.placed_singleton
      (Span.Inside.refl _)
      (Script.Item.placed_of_shape placed_condition)
  · exact Script.Namespace.placed_singleton
      (Span.Inside.refl _)
      (Script.Item.placed_of_shape placed_body)

/- The class in the condition and the one in the body. -/
def candidateAt
    (scope name : Text)
    (n : Nat) : Candidate where
  scope := [scope]
  name := some name
  decl := declAt n
  call :=
    { span := { lo := n + 2, hi := n + 7 }
      arguments :=
        [.item (.object { lo := n + 4, hi := n + 6 } [])] }

theorem not_namespacesInOrder :
    ¬ Candidate.NamespacesInOrder
      file.settings.decoratorName tree := by
  intro hOrder
  have hNone :
      ∀ name decl,
        Candidate.inModule .other = some (name, decl) →
          decl.findCall? file.settings.decoratorName =
            none := by
    intro name decl hRule
    exact absurd hRule (by simp [Candidate.inModule])
  have hCondition :
      Candidate.Found file.settings.decoratorName tree
        [0, 0, 0] (candidateAt ['M'] ['Y'] 68) :=
    ⟨0, _, [0, 0], rfl, rfl,
      .inner hNone rfl rfl (.own rfl rfl)⟩
  have hBody :
      Candidate.Found file.settings.decoratorName tree
        [0, 1, 0] (candidateAt ['N'] ['X'] 15) :=
    ⟨0, _, [1, 0], rfl, rfl,
      .inner hNone rfl rfl (.own rfl rfl)⟩
  have hPart :
      Candidate.PartAtNamespace [0, 0, 0] [0, 1, 0] :=
    ⟨0, [0, 0], [1, 0], rfl, rfl, .here Nat.zero_lt_one⟩
  have hLt := hOrder _ _ _ _ hPart hCondition hBody
  exact absurd hLt (by decide)

end Condition

theorem numbered_compile_condition :
    Condition.tree.Placed Condition.file.source ∧
      ¬ (candidatesOf Condition.file
          Condition.tree).Pairwise
        (fun c d => c.decl.lo < d.decl.lo) ∧
      ∃ result,
        compile? Condition.file [] Condition.tree =
            some result ∧
          result.table =
            [("M.Y".toList,
                { scopeId := "file-0".toList
                  template := none }),
              ("N.X".toList,
                { scopeId := "file-1".toList
                  template := none })] := by
  rcases numbered_compile Condition.file []
      Condition.tree with
    ⟨hNumbered, hTable⟩
  have hDocument :=
    hNumbered.document Condition.placed_tree
  have hSome :
      (compile? Condition.file []
        Condition.tree).isSome = true := by
    decide +kernel
  refine ⟨Condition.placed_tree, ?_, ?_⟩
  · intro hOrder
    exact Condition.not_namespacesInOrder
      (hDocument.mp hOrder)
  · rcases Option.isSome_iff_exists.mp hSome with
      ⟨result, hResult⟩
    refine ⟨result, hResult, ?_⟩
    rw [hTable result hResult]
    exact hNumbered.table (by decide)

end Loader

end ComponentLoader
