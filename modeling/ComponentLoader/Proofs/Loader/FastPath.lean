import ComponentLoader.Loader
import ComponentLoader.Proofs.Loader.Preservation
import ComponentLoader.Proofs.Script.Lacking.Modules

/-
  A file that does not mention the decorator is handed back
  unparsed.  This is what parsing it would come to, unless
  the decorator is spelled with escapes.

  Main declarations:
    * `Loader.transform_eq_parsed`
    * `Loader.escaped_decorator_missed`
-/

------------------------------------------------------------
-- The Fast Path
------------------------------------------------------------

namespace ComponentLoader

namespace Loader

/- What follows the mark of a text is an end of it. -/
theorem splitMark_suffix
    (source : Text) :
    (splitMark source).2 <:+ source :=
  ⟨(splitMark source).1, splitMark_append source⟩

/-
  The textual test agrees with the search of the tree: for
  a script in which the decorator's name neither stands nor
  is spelled with escapes, the search finds nothing to edit
  or record, and the script is what compiling it gives.
-/
theorem transform_eq_parsed
    {source : Text}
    {context : Context}
    {options : Options}
    {m : Script.Module}
    (hOptions : options.fault? = none)
    (hParse :
      Script.parse (Dialect.ofPath context.path)
        (splitMark source).2 = .ok m)
    (hPlain :
      Text.occursIn options.decoratorName source = false)
    (hEscaped :
      Script.isEscapedIn options.decoratorName source =
        false) :
    let settings := Settings.resolve context options
    let f := fileOf context settings (splitMark source).2
    let components := Component.ofCandidates
      (Candidate.ofModule settings.decoratorName m)
    editsOf? f components = some [] ∧
      tableOf f components = [] ∧
      parsed source context settings =
        some (.ok (unchanged source)) ∧
      transform source context options =
        parsed source context settings := by
  intro settings f components
  have hName :
      Script.Unmentioned settings.decoratorName source :=
    ⟨hPlain, hEscaped⟩
  have hNone :
      Candidate.ofModule settings.decoratorName m = [] :=
    Script.ofModule_of_unmentioned hParse
      (hName.of_suffix (splitMark_suffix source))
  have hComponents : components = [] := by
    simp only [components, hNone]
    rfl
  have hParsed :
      parsed source context settings =
        some (.ok (unchanged source)) := by
    have hCompile := @compile?_of_componentsOf_nil f m
      hComponents (splitMark source).1
    have hSource : f.source.text = (splitMark source).2 :=
      rfl
    rw [hSource, splitMark_append] at hCompile
    rw [parsed_of_ok hParse, hCompile, Option.map_some]
  refine ⟨by rw [hComponents]; rfl,
    by rw [hComponents]; rfl, hParsed, ?_⟩
  rw [hParsed, transform_of_fault? hOptions, hPlain]
  rfl

namespace Undecorated

def source : Text :=
  "@Other({}) export class A {}".toList

def context : Context :=
  Context.ofPath "/app/A.ts".toList

end Undecorated

theorem transform_eq_parsed_other :
    ∃ m,
      Script.parse (Dialect.ofPath Undecorated.context.path)
          (splitMark Undecorated.source).2 = .ok m ∧
        transform Undecorated.source Undecorated.context {} =
          parsed Undecorated.source Undecorated.context
            (Settings.resolve Undecorated.context {}) := by
  have hOk :
      (Script.parse (Dialect.ofPath Undecorated.context.path)
        (splitMark Undecorated.source).2).isOk = true := by
    decide +kernel
  cases hParse :
      Script.parse (Dialect.ofPath Undecorated.context.path)
        (splitMark Undecorated.source).2 with
  | error e =>
      rw [hParse] at hOk
      cases hOk
  | ok m =>
      have hAgree := @transform_eq_parsed Undecorated.source
        Undecorated.context {} m (by decide) hParse
        (by decide) (by decide +kernel)
      exact ⟨m, rfl, hAgree.2.2.2⟩

------------------------------------------------------------
-- A Decorator Spelled With An Escape
------------------------------------------------------------

namespace Escaped

def source : Text :=
  "@\\u0043omponent({}) export class A {}".toList

def context : Context :=
  Context.ofPath "/app/A.ts".toList

/- The name is read without its escape. -/
def tree : Script.Module where
  items :=
    [.mk
      (.exportClass ['A']
        { lo := 28
          decorators :=
            [{ value :=
                 .call { lo := 2, hi := 20 }
                   (.name { lo := 2, hi := 16 }
                     "Component".toList)
                   [.item
                     (.object { lo := 17, hi := 19 } [])]
               hi := 20 }] })
      []]

end Escaped

/-
  The name is not in the text, so the file is handed back;
  but it is the decorator's name, and compiling the file
  records the class.
-/
theorem escaped_decorator_missed :
    ∃ m,
      Options.fault? {} = none ∧
        Script.parse (Dialect.ofPath Escaped.context.path)
          (splitMark Escaped.source).2 = .ok m ∧
        Text.occursIn (Options.decoratorName {})
          Escaped.source = false ∧
        tableOf
            (fileOf Escaped.context
              (Settings.resolve Escaped.context {})
              (splitMark Escaped.source).2)
            (Component.ofCandidates (Candidate.ofModule
              (Options.decoratorName {}) m)) ≠ [] ∧
        transform Escaped.source Escaped.context {} ≠
          parsed Escaped.source Escaped.context
            (Settings.resolve Escaped.context {}) := by
  have hParse :
      Script.parse (Dialect.ofPath Escaped.context.path)
          (splitMark Escaped.source).2 =
        .ok Escaped.tree := by
    decide +kernel
  have hPlain :
      Text.occursIn (Options.decoratorName {})
        Escaped.source = false := by
    decide
  have hTable :
      tableOf
          (fileOf Escaped.context
            (Settings.resolve Escaped.context {})
            (splitMark Escaped.source).2)
          (Component.ofCandidates (Candidate.ofModule
            (Options.decoratorName {}) Escaped.tree)) ≠
        [] :=
    tableOf_ne_nil List.mem_cons_self
  refine ⟨Escaped.tree, by decide, hParse, hPlain, hTable,
    ?_⟩
  have hFast :
      transform Escaped.source Escaped.context {} =
        some (.ok (unchanged Escaped.source)) := by
    rw [transform_of_fault? (by decide), hPlain]
    rfl
  rw [hFast, parsed_of_ok hParse]
  intro hSame
  rcases Option.map_eq_some_iff.mp hSame.symm with
    ⟨result, hResult, hOk⟩
  cases hOk
  exact hTable (table_of_compile? hResult).symm

end Loader

end ComponentLoader
