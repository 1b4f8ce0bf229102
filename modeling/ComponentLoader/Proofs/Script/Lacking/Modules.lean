import ComponentLoader.Proofs.Script.Lacking.Expressions
import ComponentLoader.Script.Parser

/-
  The rules for declarations, statements and modules make,
  of a text that does not mention a name, no candidate of
  that name, and neither does the closed grammar.

  Main declarations:
    * `Script.Grammar.Marks.Lacks`
    * `Script.Grammar.keeps_statementWith`
    * `Script.Grammar.keeps_item`
    * `Script.lacking_rules`
    * `Script.ofModule_of_unmentioned`
-/

set_option mvcgen.warning false

------------------------------------------------------------
-- Decorators Before A Declaration
------------------------------------------------------------

namespace ComponentLoader

namespace Script

namespace Grammar

open Script.Parser

variable {name text : Text}
variable {r : Rules}
variable [Rules.Lacking name text r]
variable (sc : Scope)

/- Decorators that do not call a name. -/
structure Marks.Lacks
    (name : Text)
    (before : Marks) : Prop where
  decorators : ∀ d ∈ before.decorators, d.Lacks name
  inner : ∀ ns ∈ before.inner, ns.Lacks name

@[simp]
theorem Marks.lacks_none :
    Marks.none.Lacks name where
  decorators := by simp [Marks.none]
  inner := by simp [Marks.none]

@[spec]
theorem keeps_marks :
    Keeps name text (marks r sc) (Marks.Lacks name) := by
  have hIsolated :=
    keeps_isolate (@keeps_decorators name text r _ sc)
  mvcgen [marks, hIsolated]
  all_goals grind [Marks.Lacks]

------------------------------------------------------------
-- Variables
------------------------------------------------------------

@[spec]
theorem passes_oneVariable
    (binder : Binder)
    (inLoop : Bool) :
    Passes name text (oneVariable r sc binder inLoop) := by
  mvcgen [oneVariable]

@[spec]
theorem passes_variableList
    (binder : Binder)
    (inLoop : Bool) :
    Passes name text (variableList r sc binder inLoop) := by
  mvcgen [variableList]

@[spec]
theorem passes_variableDeclaration :
    Passes name text (variableDeclaration r sc) := by
  mvcgen [variableDeclaration]
  all_goals simp_all

@[spec]
theorem passes_usingDeclaration :
    Passes name text (usingDeclaration r sc) := by
  mvcgen [usingDeclaration]

------------------------------------------------------------
-- Functions And Classes
------------------------------------------------------------

@[spec]
theorem passes_functionDeclaration
    (async : Bool)
    {before : Marks}
    (hBefore : before.Lacks name) :
    Passes name text
      (functionDeclaration r sc async before) := by
  have hInner := hBefore.inner
  mvcgen [functionDeclaration]
  all_goals simp_all

@[spec]
theorem keeps_classDeclaration
    (lo : Nat)
    {before : Marks}
    (hBefore : before.Lacks name) :
    Keeps name text (classDeclaration r sc lo before)
      (Shape.Lacks name) := by
  have hInner := hBefore.inner
  mvcgen [classDeclaration]
  all_goals simp_all [Shape.Lacks, hBefore.decorators]

------------------------------------------------------------
-- Enumerations, Interfaces And Aliases
------------------------------------------------------------

@[spec]
theorem passes_enumKey :
    Passes name text (enumKey r sc) := by
  mvcgen [enumKey]
  all_goals simp_all

@[spec]
theorem passes_enumMember :
    Passes name text (enumMember r sc) := by
  mvcgen [enumMember]

@[spec]
theorem passes_enumRest :
    Passes name text (enumRest r sc) := by
  mvcgen [enumRest]

@[spec]
theorem passes_interfaceRest :
    Passes name text (interfaceRest r sc) := by
  mvcgen [interfaceRest]
  all_goals simp_all

@[spec]
theorem passes_aliasRest :
    Passes name text (aliasRest r sc) := by
  mvcgen [aliasRest]

------------------------------------------------------------
-- Namespaces
------------------------------------------------------------

@[spec]
theorem keeps_namespaceBody :
    Keeps name text (namespaceBody r sc)
      fun items =>
        ∀ item ∈ items, item.Lacks name := by
  mvcgen [namespaceBody]
  all_goals simp_all

theorem lacks_nested
    (names : List Text)
    {items : List Item}
    (hItems : ∀ item ∈ items, item.Lacks name) :
    ∀ item ∈ nested names items, item.Lacks name := by
  induction names with
  | nil => exact hItems
  | cons n names ih =>
      intro item hMem
      rw [nested, List.mem_singleton] at hMem
      subst hMem
      refine ⟨trivial, ?_⟩
      intro ns hNs
      rw [Item.inner, List.mem_singleton] at hNs
      subst hNs
      exact Namespace.lacks_mk ih (some n)

@[spec]
theorem passes_namespaceRest :
    Passes name text (namespaceRest r sc) := by
  mvcgen [namespaceRest]
  all_goals grind [Namespace.lacks_mk, lacks_nested]

@[spec]
theorem passes_ambientBody
    (n : Option Text) :
    Passes name text (ambientBody r sc n) := by
  mvcgen [ambientBody]
  all_goals grind [Namespace.lacks_mk]

@[spec]
theorem passes_moduleRest :
    Passes name text (moduleRest r sc) := by
  mvcgen [moduleRest]
  all_goals simp_all

------------------------------------------------------------
-- Words That Declare With Types
------------------------------------------------------------

@[spec]
theorem keeps_typeWord
    (word : TypeWord)
    (lo : Nat)
    {before : Marks}
    (hBefore : before.Lacks name) :
    Keeps name text (word.declaration r sc lo before)
      (Shape.Lacks name) := by
  mvcgen [TypeWord.declaration]
  all_goals simp_all

@[spec]
theorem keeps_leadingDeclaration
    (lo : Nat)
    {before : Marks}
    (hBefore : before.Lacks name) :
    Keeps name text (leadingDeclaration r sc lo before)
      fun found =>
        ∀ shape, found = some shape → shape.Lacks name := by
  mvcgen [leadingDeclaration]
  all_goals simp_all

@[spec]
theorem keeps_ambientDeclaration
    (lo : Nat)
    {before : Marks}
    (hBefore : before.Lacks name) :
    Keeps name text (ambientDeclaration r sc lo before)
      fun found =>
        ∀ shape, found = some shape → shape.Lacks name := by
  mvcgen [ambientDeclaration]
  all_goals simp_all

@[spec]
theorem keeps_namedDeclaration
    (lo : Nat)
    {before : Marks}
    (hBefore : before.Lacks name)
    (word : Text) :
    Keeps name text (namedDeclaration r sc lo before word)
      fun found =>
        ∀ shape, found = some shape → shape.Lacks name := by
  unfold namedDeclaration
  generalize TypeWord.ofText? word = start
  generalize "declare".toList = declare
  generalize "abstract".toList = abstract
  generalize globalName = global
  mvcgen
  all_goals simp_all

------------------------------------------------------------
-- Declarations
------------------------------------------------------------

@[spec]
theorem keeps_codeDeclaration
    {before : Marks}
    (hBefore : before.Lacks name) :
    Keeps name text (codeDeclaration r sc before)
      fun found =>
        ∀ shape, found = some shape → shape.Lacks name := by
  mvcgen [codeDeclaration]
  all_goals simp_all

@[spec]
theorem keeps_typeDeclaration :
    Keeps name text (typeDeclaration r sc)
      fun found =>
        ∀ shape, found = some shape → shape.Lacks name := by
  mvcgen [typeDeclaration]
  all_goals simp_all

@[spec]
theorem keeps_bindingDeclaration
    (declOk : Bool) :
    Keeps name text (bindingDeclaration r sc declOk)
      fun found =>
        ∀ shape, found = some shape → shape.Lacks name := by
  mvcgen [bindingDeclaration]
  all_goals simp_all

@[spec]
theorem keeps_declaration
    (declOk : Bool)
    {before : Marks}
    (hBefore : before.Lacks name) :
    Keeps name text (declaration r sc declOk before)
      fun found =>
        ∀ shape, found = some shape → shape.Lacks name := by
  mvcgen [declaration]
  all_goals simp_all

------------------------------------------------------------
-- Parts Of Statements
------------------------------------------------------------

@[spec]
theorem passes_guarded :
    Passes name text (guarded r sc) := by
  mvcgen [guarded]

@[spec]
theorem passes_substatement :
    Passes name text (substatement r sc) := by
  mvcgen [substatement]

------------------------------------------------------------
-- Loops
------------------------------------------------------------

@[spec]
theorem passes_countedHead :
    Passes name text (countedHead r sc) := by
  mvcgen [countedHead]

@[spec]
theorem passes_eachHead :
    Passes name text (eachHead r sc) := by
  mvcgen [eachHead]

@[spec]
theorem passes_boundHead :
    Passes name text (boundHead r sc) := by
  mvcgen [boundHead]
  all_goals simp_all

@[spec]
theorem passes_unboundHead :
    Passes name text (unboundHead r sc) := by
  mvcgen [unboundHead]

@[spec]
theorem passes_variableHead :
    Passes name text (variableHead r sc) := by
  mvcgen [variableHead]
  all_goals simp_all

@[spec]
theorem passes_expressionHead :
    Passes name text (expressionHead r sc) := by
  mvcgen [expressionHead]
  all_goals simp_all

@[spec]
theorem passes_forHead :
    Passes name text (forHead r sc) := by
  mvcgen [forHead]
  all_goals simp_all

@[spec]
theorem passes_forStatement :
    Passes name text (forStatement r sc) := by
  mvcgen [forStatement]

@[spec]
theorem passes_doStatement :
    Passes name text (doStatement r sc) := by
  mvcgen [doStatement]
  all_goals simp_all

------------------------------------------------------------
-- Choices
------------------------------------------------------------

@[spec]
theorem passes_ifClause :
    Passes name text (ifClause r sc) := by
  mvcgen [ifClause]

@[spec]
theorem passes_elseClause :
    Passes name text (elseClause r sc) := by
  mvcgen [elseClause]

@[spec]
theorem passes_ifStatement :
    Passes name text (ifStatement r sc) := by
  mvcgen [ifStatement]
  all_goals simp_all

@[spec]
theorem passes_caseBody :
    Passes name text (caseBody r sc) := by
  mvcgen [caseBody]

@[spec]
theorem passes_switchCase
    (seen : Bool) :
    Passes name text (switchCase r sc seen) := by
  mvcgen [switchCase]

@[spec]
theorem passes_switchStatement :
    Passes name text (switchStatement r sc) := by
  mvcgen [switchStatement]
  all_goals simp_all

@[spec]
theorem passes_catchClause :
    Passes name text (catchClause r sc) := by
  mvcgen [catchClause]
  all_goals simp_all

@[spec]
theorem passes_finallyClause :
    Passes name text (finallyClause r sc) := by
  mvcgen [finallyClause]
  all_goals simp_all

@[spec]
theorem passes_tryStatement :
    Passes name text (tryStatement r sc) := by
  mvcgen [tryStatement]
  all_goals simp_all

@[spec]
theorem keeps_strayHandler :
    Keeps name text (strayHandler r sc)
      (Shape.Lacks name) := by
  mvcgen [strayHandler]
  all_goals simp_all

------------------------------------------------------------
-- Jumps
------------------------------------------------------------

@[spec]
theorem passes_jump :
    Passes name text (jump sc) := by
  mvcgen [jump]

@[spec]
theorem passes_returnStatement :
    Passes name text (returnStatement r sc) := by
  mvcgen [returnStatement]

@[spec]
theorem passes_throwStatement :
    Passes name text (throwStatement r sc) := by
  mvcgen [throwStatement]

------------------------------------------------------------
-- Statements
------------------------------------------------------------

omit [Rules.Lacking name text r] in
theorem passes_of_ite
    {p rest : Parser Unit}
    {other : Option (Parser Unit)}
    {condition : Prop}
    [Decidable condition]
    (hRest :
      (if condition then some p else other) = some rest)
    (hThen : Passes name text p)
    (hElse : other = some rest → Passes name text rest) :
    Passes name text rest := by
  split at hRest
  · cases hRest
    exact hThen
  · exact hElse hRest

/-
  The words are not compared: whichever it is, what follows
  it passes.
-/
theorem passes_wordStatement
    {here : Token}
    {rest : Parser Unit}
    (hRest : wordStatement r sc here = some rest) :
    Passes name text rest := by
  have hGuarded :
      Passes name text
        (guarded r sc >>= fun _ => substatement r sc) := by
    mvcgen
    all_goals simp_all
  unfold wordStatement at hRest
  split at hRest
  · refine passes_of_ite hRest (passes_jump sc) ?_
    refine (passes_of_ite · (passes_jump sc) ?_)
    refine (passes_of_ite · passes_semicolon ?_)
    refine (passes_of_ite · (passes_doStatement sc) ?_)
    refine (passes_of_ite · (passes_forStatement sc) ?_)
    refine (passes_of_ite · (passes_ifStatement sc) ?_)
    refine (passes_of_ite · (passes_returnStatement sc) ?_)
    refine (passes_of_ite · (passes_switchStatement sc) ?_)
    refine (passes_of_ite · (passes_throwStatement sc) ?_)
    refine (passes_of_ite · (passes_tryStatement sc) ?_)
    refine (passes_of_ite · hGuarded ?_)
    exact fun hNone => absurd hNone (by simp)
  · cases hRest
    exact passes_statements sc
  · cases hRest
    mvcgen
  · cases hRest

@[spec]
theorem keeps_expressionEnd
    {value : Expr}
    (hValue : value.Lacks name) :
    Keeps name text (expressionEnd r sc value)
      (Shape.Lacks name) := by
  mvcgen [expressionEnd]
  all_goals simp_all

@[spec]
theorem keeps_simpleStatement
    {before : Marks}
    (hBefore : before.Lacks name) :
    Keeps name text (simpleStatement r sc before)
      (Shape.Lacks name) := by
  mvcgen [simpleStatement, keeps_expression]
  all_goals simp_all

@[spec]
theorem keeps_awaitUsing :
    Keeps name text (awaitUsing r sc) (Shape.Lacks name) := by
  mvcgen [awaitUsing]
  all_goals simp_all

@[spec]
theorem keeps_statementWith
    (declOk : Bool)
    {before : Marks}
    (hBefore : before.Lacks name) :
    Keeps name text (statementWith r sc declOk before)
      (Shape.Lacks name) := by
  mvcgen [statementWith]
  case vc7 =>
    have hPasses := @passes_wordStatement name text r _ _ _ _
      (by assumption)
    mvcgen [hPasses]
  all_goals simp_all

@[spec]
theorem keeps_importStatement :
    Keeps name text (importStatement r sc)
      (Shape.Lacks name) := by
  mvcgen [importStatement]

@[spec]
theorem keeps_statement
    (declOk : Bool) :
    Keeps name text (statement r sc declOk)
      (Shape.Lacks name) := by
  mvcgen [statement]
  all_goals simp_all

------------------------------------------------------------
-- Names In Lists
------------------------------------------------------------

@[spec]
theorem passes_exportedName :
    Passes name text exportedName := by
  mvcgen [exportedName]
  all_goals simp_all

@[spec]
theorem passes_typeAsNames
    {bound : Parser Text}
    (hBound : Passes name text bound) :
    Passes name text (typeAsNames bound) := by
  mvcgen [typeAsNames, hBound]

@[spec]
theorem passes_namesInBraces
    {word : Parser Unit}
    (hWord : Passes name text word) :
    Passes name text (namesInBraces word) := by
  mvcgen [namesInBraces, hWord]

@[spec]
theorem passes_importedAs
    (word : Text) :
    Passes name text (importedAs sc word) := by
  mvcgen [importedAs]

@[spec]
theorem passes_importSpecifier :
    Passes name text (importSpecifier sc) := by
  mvcgen [importSpecifier]

@[spec]
theorem passes_exportedAs :
    Passes name text exportedAs := by
  mvcgen [exportedAs]

@[spec]
theorem passes_exportSpecifier :
    Passes name text (exportSpecifier sc) := by
  mvcgen [exportSpecifier]

------------------------------------------------------------
-- Sources
------------------------------------------------------------

@[spec]
theorem passes_moduleName :
    Passes name text (moduleName r sc) := by
  mvcgen [moduleName]
  all_goals simp_all

@[spec]
theorem passes_fromClause :
    Passes name text (fromClause r sc) := by
  mvcgen [fromClause]

------------------------------------------------------------
-- Imports
------------------------------------------------------------

@[spec]
theorem passes_importTarget :
    Passes name text importTarget := by
  mvcgen [importTarget]

@[spec]
theorem passes_isAtNames :
    Passes name text isAtNames := by
  mvcgen [isAtNames]

@[spec]
theorem passes_nameAfterType :
    Passes name text (nameAfterType sc) := by
  mvcgen [nameAfterType]

@[spec]
theorem passes_importName :
    Passes name text (importName sc) := by
  mvcgen [importName]

@[spec]
theorem passes_nameAfterPhase
    (phase : Phase) :
    Passes name text (nameAfterPhase sc phase) := by
  mvcgen [nameAfterPhase]

@[spec]
theorem passes_importNames
    (phase : Phase) :
    Passes name text (importNames sc phase) := by
  mvcgen [importNames]

@[spec]
theorem passes_importRest
    (phase : Phase)
    (named : Bool) :
    Passes name text (importRest r sc phase named) := by
  mvcgen [importRest]
  all_goals simp_all

@[spec]
theorem passes_importNamed :
    Passes name text (importNamed r sc) := by
  mvcgen [importNamed]
  all_goals simp_all

@[spec]
theorem passes_importItem :
    Passes name text (importItem r sc) := by
  mvcgen [importItem]
  all_goals simp_all

------------------------------------------------------------
-- Default Exports
------------------------------------------------------------

@[spec]
theorem keeps_lateMarks
    {before : Marks}
    (hBefore : before.Lacks name) :
    Keeps name text (lateMarks r sc before)
      (Marks.Lacks name) := by
  mvcgen [lateMarks]
  all_goals simp_all

@[spec]
theorem keeps_defaultClass
    (lo : Nat)
    {before : Marks}
    (hBefore : before.Lacks name) :
    Keeps name text (defaultClass r sc lo before)
      (Shape.Lacks name) := by
  mvcgen [defaultClass]
  all_goals
    simp_all [Shape.Lacks, hBefore.decorators, hBefore.inner]

@[spec]
theorem keeps_defaultFunction
    (async : Bool)
    {before : Marks}
    (hBefore : before.Lacks name) :
    Keeps name text (defaultFunction r sc async before)
      (Shape.Lacks name) := by
  mvcgen [defaultFunction]
  all_goals simp_all [hBefore.inner]

@[spec]
theorem keeps_defaultValue :
    Keeps name text (defaultValue r sc)
      (Shape.Lacks name) := by
  mvcgen [defaultValue]

@[spec]
theorem keeps_plainDefault
    {before : Marks}
    (hBefore : before.Lacks name) :
    Keeps name text (plainDefault r sc before)
      (Shape.Lacks name) := by
  mvcgen [plainDefault]
  all_goals simp_all

@[spec]
theorem keeps_exportDefault
    {outer : Marks}
    (hOuter : outer.Lacks name) :
    Keeps name text (exportDefault r sc outer)
      (Shape.Lacks name) := by
  mvcgen [exportDefault]
  all_goals simp_all

------------------------------------------------------------
-- Other Exports
------------------------------------------------------------

@[spec]
theorem passes_exportAll :
    Passes name text (exportAll r sc) := by
  mvcgen [exportAll]
  all_goals simp_all

@[spec]
theorem passes_exportNames :
    Passes name text (exportNames r sc) := by
  mvcgen [exportNames]
  all_goals simp_all

@[spec]
theorem keeps_exportList :
    Keeps name text (exportList r sc) (Shape.Lacks name) := by
  mvcgen [exportList]

@[simp]
theorem lacks_exported
    {shape : Shape}
    (hLacks : shape.Lacks name) :
    (exported shape).Lacks name := by
  cases shape with
  | classDecl n decl => exact hLacks
  | _ => exact hLacks

@[spec]
theorem keeps_exportDeclaration
    {outer : Marks}
    (hOuter : outer.Lacks name) :
    Keeps name text (exportDeclaration r sc outer)
      (Shape.Lacks name) := by
  mvcgen [exportDeclaration]
  all_goals simp_all

@[spec]
theorem passes_exportImport :
    Passes name text exportImport := by
  mvcgen [exportImport]

@[spec]
theorem keeps_exportTyped
    (lo : Nat)
    {before : Marks}
    (hBefore : before.Lacks name) :
    Keeps name text (exportTyped r sc lo before)
      fun found =>
        ∀ shape, found = some shape → shape.Lacks name := by
  have hLeading :=
    fun p : Parser Shape =>
      @keeps_attempt Shape name text p (Shape.Lacks name)
  mvcgen [exportTyped, hLeading]
  all_goals simp_all

@[spec]
theorem keeps_exportPlain
    {before : Marks}
    (hBefore : before.Lacks name) :
    Keeps name text (exportPlain r sc before)
      (Shape.Lacks name) := by
  mvcgen [exportPlain]
  all_goals simp_all

@[spec]
theorem keeps_exportAmbient
    (lo : Nat)
    {before : Marks}
    (hBefore : before.Lacks name) :
    Keeps name text (exportAmbient r sc lo before)
      fun found =>
        ∀ shape, found = some shape → shape.Lacks name := by
  mvcgen [exportAmbient]
  all_goals simp_all

@[spec]
theorem keeps_exportItem
    {before : Marks}
    (hBefore : before.Lacks name) :
    Keeps name text (exportItem r sc before)
      (Shape.Lacks name) := by
  mvcgen [exportItem]
  all_goals simp_all

------------------------------------------------------------
-- Items
------------------------------------------------------------

@[spec]
theorem keeps_itemShape :
    Keeps name text (itemShape r sc) (Shape.Lacks name) := by
  mvcgen [itemShape]
  all_goals simp_all

@[spec]
theorem keeps_item :
    Keeps name text (item r sc) (Item.Lacks name) := by
  have hIsolated :=
    keeps_isolate (@keeps_itemShape name text r _ sc)
  mvcgen [item, hIsolated]
  all_goals grind [Item.Lacks, Item.shape, Item.inner]

theorem keeps_items :
    Keeps name text (items r sc)
      fun items => ∀ item ∈ items, item.Lacks name := by
  apply keeps_collect
  mvcgen
  all_goals simp_all

theorem keeps_moduleItems :
    Keeps name text (moduleItems r sc)
      fun items => ∀ item ∈ items, item.Lacks name := by
  apply keeps_collect
  mvcgen
  all_goals simp_all

end Grammar

------------------------------------------------------------
-- The Closed Grammar
------------------------------------------------------------

open Script.Parser

variable {name text : Text}

/- Rules of every depth lack a name, by the rules above. -/
instance lacking_rules
    (n : Nat) :
    Rules.Lacking name text (rules n) := by
  induction n with
  | zero =>
      constructor
      all_goals intros
      all_goals first | exact keeps_fail | exact passes_fail
  | succ n ih =>
      exact
        { assign := fun sc => Grammar.keeps_assign sc
          binary := fun sc => Grammar.keeps_binary sc
          unary := fun sc => Grammar.keeps_unary sc
          operand := fun sc => Grammar.keeps_operand sc
          construct := fun sc => Grammar.keeps_construct sc
          type := fun sc => Grammar.passes_type sc
          plainType := fun sc => Grammar.passes_plainType sc
          pattern := fun sc => Grammar.passes_pattern sc
          element := fun sc => Grammar.passes_markupElement sc
          decorator := fun sc => Grammar.keeps_decorator sc
          statement := fun sc declOk =>
            Grammar.keeps_statement sc declOk
          items := fun sc => Grammar.keeps_items sc }

theorem startOf_suffix
    (text : Text) :
    (startOf text).rest <:+ text := by
  have hSkip : ∀ p, (skipInterpreter p).rest <:+ p.rest := by
    intro p
    unfold skipInterpreter
    split
    · exact p.after_suffix _
    · exact List.suffix_rfl
  unfold startOf
  split
  · next c cs =>
      split
      · exact (hSkip _).trans (List.suffix_cons c cs)
      · exact hSkip _
  · exact List.suffix_rfl

/- A script that does not mention a name has no candidate. -/
theorem ofModule_of_unmentioned
    {dialect : Dialect}
    {m : Module}
    (hParse : parse dialect text = .ok m)
    (hName : Unmentioned name text) :
    Candidate.ofModule name m = [] := by
  apply ofModule_of_lacks
  unfold parse at hParse
  simp only at hParse
  have hStart := Cursor.lacks_atPlace hName true
    ((startOf text).rest.length + 1) (List.forall_mem_nil _)
    (startOf_suffix text)
  have hItems := keeps_iff.mp
    (@Grammar.keeps_moduleItems name text
      (rules (depthOf (startOf text).rest)) _
      { types := dialect.types, markup := dialect.markup })
    _ hStart
  split at hParse
  · next items c hRun =>
      cases hParse
      rw [Cursor.start] at hRun
      rw [hRun] at hItems
      exact hItems.1
  · cases hParse

end Script

end ComponentLoader
