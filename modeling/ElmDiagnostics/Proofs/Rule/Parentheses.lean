import ElmDiagnostics.Proofs.Rule.ListShape
import ElmDiagnostics.Proofs.Syntax.Parentheses
import ElmDiagnostics.Rule.RuleSet

/-!
Contract: parentheses never matter to the linter.

Owns: for the usage analysis, for each shape that a rule looks for and for each rule, that it finds
the same in a module and in the module without parentheses; hence that a module is evaluated to the
same reports.

Does not own: removing parentheses.

A rule visits every expression. The expressions that remain when parentheses are removed must give
the same reports as before, and the parentheses themselves must have given none.
-/

set_option autoImplicit false

namespace ElmDiagnostics

/-! ### The usage analysis -/

theorem Declaration.references_withoutParens (declaration : Declaration) :
    declaration.withoutParens.references = declaration.references := by
  cases declaration with
  | value decl =>
      show decl.withoutParens.references = decl.references
      rw [ValueDecl.references, ValueDecl.references, ValueDecl.withoutParens,
        Pattern.referencesOfList_withoutParens, Expr.references_withoutParens]
  | _ => rfl

theorem Module.flatMap_declarations_withoutParens {β : Type} (gather : Declaration → List β)
    (kept : ∀ declaration : Declaration, gather declaration.withoutParens = gather declaration)
    (m : Module) :
    m.withoutParens.declarations.flatMap gather = m.declarations.flatMap gather := by
  rw [Module.withoutParens, List.flatMap_map]
  simp only [kept]

theorem Scope.ofModule_withoutParens (m : Module) :
    Scope.ofModule m.withoutParens = Scope.ofModule m := by
  unfold Scope.ofModule
  congr 1
  all_goals
    apply Module.flatMap_declarations_withoutParens
    intro declaration
    cases declaration <;> rfl

theorem Declaration.edges_withoutParens (scope : Scope) (declaration : Declaration) :
    declaration.withoutParens.edges scope = declaration.edges scope := by
  unfold Declaration.edges
  rw [references_withoutParens]
  cases declaration <;> rfl

theorem Module.edges_withoutParens (m : Module) : m.withoutParens.edges = m.edges := by
  unfold Module.edges
  rw [Scope.ofModule_withoutParens]
  exact m.flatMap_declarations_withoutParens _ (Declaration.edges_withoutParens _)

theorem Module.roots_withoutParens (m : Module) : m.withoutParens.roots = m.roots := by
  unfold Module.roots
  rw [Scope.ofModule_withoutParens, portDecls_withoutParens]
  rfl

theorem Usage.ofModule_withoutParens (m : Module) :
    Usage.ofModule m.withoutParens = Usage.ofModule m := by
  unfold Usage.ofModule Module.references
  rw [Module.edges_withoutParens, Module.roots_withoutParens,
    m.flatMap_declarations_withoutParens _ Declaration.references_withoutParens]

theorem LintInput.ofModule_withoutParens (m : Module) (interfaces : Table String Interface) :
    LintInput.ofModule m.withoutParens interfaces =
      { LintInput.ofModule m interfaces with tree := m.withoutParens } := by
  rw [LintInput.ofModule, Usage.ofModule_withoutParens, LintInput.ofModule]

/-! ### Visiting every expression -/

/-- What is gathered from an expression comes from none of its parentheses, nor are any needed. -/
structure Expr.IgnoresParens {β : Type} (gather : Expr → List β) : Prop where
  paren : ∀ inner span, gather (.paren inner span) = []
  kept : ∀ expr : Expr, expr.isParen = false → gather expr.withoutParens = gather expr

namespace Expr.IgnoresParens

variable {β : Type} {gather : Expr → List β}

theorem flatMap_unwrapped (ignores : IgnoresParens gather) (exprs : List Expr) :
    (unwrapped exprs).flatMap gather = exprs.flatMap gather := by
  induction exprs with
  | nil => rfl
  | cons expr rest inductionHypothesis =>
      cases paren : expr.isParen with
      | false =>
          rw [unwrapped_cons paren, List.flatMap_cons, List.flatMap_cons, inductionHypothesis,
            ignores.kept expr paren]
      | true =>
          have dropped : unwrapped (expr :: rest) = unwrapped rest := by
            rw [unwrapped, List.filter_cons_of_neg (by simp [paren]), unwrapped]
          have nothing : gather expr = [] := by
            cases expr with
            | paren inner span => exact ignores.paren inner span
            | _ => exact absurd paren (by simp [isParen])
          rw [dropped, List.flatMap_cons, inductionHypothesis, nothing, List.nil_append]

theorem flatMap_exprs (ignores : IgnoresParens gather) (m : Module) :
    m.withoutParens.exprs.flatMap gather = m.exprs.flatMap gather := by
  rw [Module.exprs_withoutParens, ignores.flatMap_unwrapped]

end Expr.IgnoresParens

theorem Expr.isListLiteral_withoutParens (expr : Expr) :
    expr.withoutParens.isListLiteral = expr.isListLiteral := by
  obtain ⟨core, notParen, before, after⟩ := expr.exists_core
  rw [isListLiteral, isListLiteral, before, after]
  cases core with
  | paren inner span => exact absurd notParen (by simp [isParen])
  | _ => rfl

namespace Rule

/-! ### Shapes of lists -/

theorem withoutParens_keepsLists : KeepsLists Expr.withoutParens where
  isListLiteral := Expr.isListLiteral_withoutParens
  listItems := by
    intro expr
    obtain ⟨core, notParen, before, after⟩ := expr.exists_core
    rw [listItems?, listItems?, before, after]
    cases core with
    | list items span => exact congrArg some (Expr.withoutParensOfList_eq_map items)
    | paren inner span => exact absurd notParen (by simp [Expr.isParen])
    | _ => rfl
  isListConcat := by
    intro expr
    obtain ⟨core, notParen, before, after⟩ := expr.exists_core
    rw [isListConcat, isListConcat, before, after]
    cases core with
    | paren inner span => exact absurd notParen (by simp [Expr.isParen])
    | _ => rfl

theorem withoutParens_keepsOutermost {expr : Expr} (notParen : expr.isParen = false) :
    KeepsOutermost Expr.withoutParens expr := by
  cases expr with
  | binary used left right span =>
      refine ⟨fun symbol => ?_, rfl⟩
      rw [Expr.withoutParens, operands?, operands?]
      split <;> rfl
  | call function args span =>
      refine ⟨fun _ => rfl, ?_⟩
      rw [Expr.withoutParens, Expr.withoutParensOfList_eq_map]
      rfl
  | paren inner span => exact absurd notParen (by simp [Expr.isParen])
  | _ => exact ⟨fun _ => rfl, rfl⟩

/-! ### Shapes of patterns -/

theorem boolPattern?_withoutParens (pattern : Pattern) :
    boolPattern? pattern.withoutParens = boolPattern? pattern := by
  obtain ⟨core, notParen, before, after⟩ := pattern.exists_core
  rw [boolPattern?, boolPattern?, before, after]
  cases core with
  | ctor name args span => cases args <;> rfl
  | paren inner span => exact absurd notParen (by simp [Pattern.isParen])
  | _ => rfl

theorem isWildcard_withoutParens (pattern : Pattern) :
    isWildcard pattern.withoutParens = isWildcard pattern := by
  obtain ⟨core, notParen, before, after⟩ := pattern.exists_core
  rw [isWildcard, isWildcard, before, after]
  cases core with
  | paren inner span => exact absurd notParen (by simp [Pattern.isParen])
  | _ => rfl

theorem isBooleanSplit_withoutParens (first second : Pattern) :
    isBooleanSplit first.withoutParens second.withoutParens = isBooleanSplit first second := by
  unfold isBooleanSplit
  rw [boolPattern?_withoutParens, boolPattern?_withoutParens, isWildcard_withoutParens]

theorem isBooleanCase_withoutParens {expr : Expr} (notParen : expr.isParen = false) :
    isBooleanCase expr.withoutParens = isBooleanCase expr := by
  cases expr with
  | caseOf scrutinee branches span =>
      rw [Expr.withoutParens, Expr.withoutParensOfBranches_eq_map]
      match branches with
      | [] | [_] | _ :: _ :: _ :: _ => rfl
      | [first, second] =>
          show (isBooleanSplit first.pattern.withoutParens second.pattern.withoutParens ||
            isBooleanSplit second.pattern.withoutParens first.pattern.withoutParens) = _
          rw [isBooleanSplit_withoutParens, isBooleanSplit_withoutParens, isBooleanCase]
  | paren inner span => exact absurd notParen (by simp [Expr.isParen])
  | _ => rfl

/-! ### What is gathered from each expression -/

theorem operatorCallOf_ignoresParens : Expr.IgnoresParens operatorCallOf where
  paren _ _ := rfl
  kept expr notParen := by
    cases expr with
    | call function args span =>
        rw [Expr.withoutParens, Expr.withoutParensOfList_eq_map]
        match args with
        | [] | [_] | _ :: _ :: _ :: _ => rfl
        | [left, right] =>
            obtain ⟨core, coreNotParen, before, after⟩ := function.exists_core
            simp only [List.map_cons, List.map_nil, operatorCallOf, before, after]
            cases core with
            | paren inner span => exact absurd coreNotParen (by simp [Expr.isParen])
            | _ => rfl
    | paren inner span => exact absurd notParen (by simp [Expr.isParen])
    | _ => rfl

theorem letSignatures_ignoresParens : Expr.IgnoresParens letSignatures where
  paren _ _ := rfl
  kept expr notParen := by
    cases expr with
    | letIn declarations body span =>
        rw [Expr.withoutParens, Expr.withoutParensOfLetDecls_eq_map, letSignatures, letSignatures,
          List.filterMap_map]
        congr 1
        funext declaration
        cases declaration <;> rfl
    | paren inner span => exact absurd notParen (by simp [Expr.isParen])
    | _ => rfl

theorem unusedParams_withoutParens (decl : ValueDecl) :
    unusedParams decl.withoutParens = unusedParams decl := by
  unfold unusedParams unusedBinders
  rw [ValueDecl.withoutParens, Pattern.bindersOfList_withoutParens, Expr.localValues_withoutParens]

theorem unusedBinders_withoutParens (patterns : List Pattern) (mentioned : List String) :
    unusedBinders (Pattern.withoutParensOfList patterns) mentioned =
      unusedBinders patterns mentioned := by
  rw [unusedBinders, Pattern.bindersOfList_withoutParens, unusedBinders]

theorem unusedBindersOf_ignoresParens : Expr.IgnoresParens unusedBindersOf where
  paren _ _ := rfl
  kept expr notParen := by
    have sameNames := expr.localValues_withoutParens
    cases expr with
    | lambda params body span =>
        rw [Expr.withoutParens, unusedBindersOf, unusedBindersOf, unusedBinders_withoutParens,
          body.localValues_withoutParens]
    | caseOf scrutinee branches span =>
        rw [Expr.withoutParens, Expr.withoutParensOfBranches_eq_map, unusedBindersOf,
          unusedBindersOf, List.flatMap_map]
        congr 1
        funext branch
        show unusedBinders (Pattern.withoutParensOfList [branch.pattern])
          branch.body.withoutParens.localValues = _
        rw [unusedBinders_withoutParens, branch.body.localValues_withoutParens]
    | letIn declarations body span =>
        rw [Expr.withoutParens] at sameNames ⊢
        rw [unusedBindersOf, unusedBindersOf, sameNames, Expr.withoutParensOfLetDecls_eq_map,
          List.flatMap_map]
        congr 1
        funext declaration
        cases declaration with
        | value decl => exact unusedParams_withoutParens decl
        | destructure pattern body span => exact unusedBinders_withoutParens [pattern] _
    | paren inner span => exact absurd notParen (by simp [Expr.isParen])
    | _ => rfl

theorem typeRootsOf_withoutParens (declaration : Declaration) :
    typeRootsOf declaration.withoutParens = typeRootsOf declaration := by
  cases declaration with
  | value decl =>
      show _ ++ decl.body.withoutParens.subexprs.flatMap letSignatures = _
      rw [Expr.subexprs_withoutParens, letSignatures_ignoresParens.flatMap_unwrapped]
      rfl
  | _ => rfl

/-! ### Rules -/

theorem reportExprs_eq_flatMap (rule : Rule) (message : String) (hasShape : Expr → Bool)
    (input : LintInput) :
    reportExprs rule message hasShape input = input.tree.exprs.flatMap fun expr =>
      if hasShape expr then [rule.report message expr.span] else [] := by
  unfold reportExprs
  induction input.tree.exprs with
  | nil => rfl
  | cons expr rest inductionHypothesis =>
      rw [List.flatMap_cons, ← inductionHypothesis, List.filter_cons]
      split <;> rfl

variable (m : Module) (interfaces : Table String Interface)

theorem reportExprs_withoutParens (rule : Rule) (message : String) {hasShape : Expr → Bool}
    (paren : ∀ inner span, hasShape (.paren inner span) = false)
    (kept : ∀ {expr : Expr}, expr.isParen = false → hasShape expr.withoutParens = hasShape expr) :
    reportExprs rule message hasShape (LintInput.ofModule m.withoutParens interfaces) =
      reportExprs rule message hasShape (LintInput.ofModule m interfaces) := by
  have ignores : Expr.IgnoresParens fun expr =>
      if hasShape expr then [rule.report message expr.span] else [] := {
    paren := fun inner span => by simp [paren]
    kept := fun expr notParen => by rw [kept notParen, Expr.span_withoutParens notParen] }
  rw [reportExprs_eq_flatMap, reportExprs_eq_flatMap]
  exact ignores.flatMap_exprs m

theorem checkUnusedPatternVariable_withoutParens :
    checkUnusedPatternVariable (LintInput.ofModule m.withoutParens interfaces) =
      checkUnusedPatternVariable (LintInput.ofModule m interfaces) := by
  have params : m.withoutParens.valueDecls.flatMap unusedParams =
      m.valueDecls.flatMap unusedParams := by
    rw [Module.valueDecls_withoutParens, List.flatMap_map]
    simp only [unusedParams_withoutParens]
  show m.withoutParens.valueDecls.flatMap unusedParams ++
    m.withoutParens.exprs.flatMap unusedBindersOf = _
  rw [params, unusedBindersOf_ignoresParens.flatMap_exprs]
  rfl

theorem checkSingleFieldRecord_withoutParens :
    checkSingleFieldRecord (LintInput.ofModule m.withoutParens interfaces) =
      checkSingleFieldRecord (LintInput.ofModule m interfaces) := by
  have types := m.flatMap_declarations_withoutParens typeRootsOf typeRootsOf_withoutParens
  unfold checkSingleFieldRecord
  simp only [LintInput.ofModule, types]

theorem checkPortModuleWithoutPorts_withoutParens :
    checkPortModuleWithoutPorts (LintInput.ofModule m.withoutParens interfaces) =
      checkPortModuleWithoutPorts (LintInput.ofModule m interfaces) := by
  unfold checkPortModuleWithoutPorts
  simp only [LintInput.ofModule, Module.portDecls_withoutParens]
  rfl

theorem checkUnusedConstructor_withoutParens :
    checkUnusedConstructor (LintInput.ofModule m.withoutParens interfaces) =
      checkUnusedConstructor (LintInput.ofModule m interfaces) := by
  have sameReports := m.flatMap_declarations_withoutParens
    (unusedConstructorsOf m.withoutParens (Usage.ofModule m)) (by
      intro declaration
      cases declaration <;> rfl)
  rw [LintInput.ofModule_withoutParens]
  unfold checkUnusedConstructor
  simp only [LintInput.ofModule, sameReports]
  rfl

/-- Each rule reports the same with and without parentheses. -/
theorem check_withoutParens (rule : Rule) :
    rule.check (LintInput.ofModule m.withoutParens interfaces) =
      rule.check (LintInput.ofModule m interfaces) := by
  cases rule with
  | booleanCase =>
      exact congrArg Except.ok
        (reportExprs_withoutParens m interfaces _ _ (fun _ _ => rfl) isBooleanCase_withoutParens)
  | consOntoListLiteral =>
      exact congrArg Except.ok
        (reportExprs_withoutParens m interfaces _ _ (fun _ _ => rfl) fun notParen =>
          withoutParens_keepsLists.isConsOntoListLiteral (withoutParens_keepsOutermost notParen))
  | concatOfListLiterals =>
      exact congrArg Except.ok
        (reportExprs_withoutParens m interfaces _ _ (fun _ _ => rfl) fun notParen =>
          withoutParens_keepsLists.isConcatOfListLiterals (withoutParens_keepsOutermost notParen))
  | concatOntoSingleton =>
      exact congrArg Except.ok
        (reportExprs_withoutParens m interfaces _ _ (fun _ _ => rfl) fun notParen =>
          withoutParens_keepsLists.isConcatOntoSingleton (withoutParens_keepsOutermost notParen))
  | flattenedListLiterals =>
      exact congrArg Except.ok
        (reportExprs_withoutParens m interfaces _ _ (fun _ _ => rfl) fun notParen =>
          withoutParens_keepsLists.isFlattenedListLiterals (withoutParens_keepsOutermost notParen))
  | operatorCall => exact congrArg Except.ok (operatorCallOf_ignoresParens.flatMap_exprs m)
  | unusedPatternVariable =>
      exact congrArg Except.ok (checkUnusedPatternVariable_withoutParens m interfaces)
  | singleFieldRecord => exact congrArg Except.ok (checkSingleFieldRecord_withoutParens m interfaces)
  | portModuleWithoutPorts =>
      exact congrArg Except.ok (checkPortModuleWithoutPorts_withoutParens m interfaces)
  | unusedConstructor => exact congrArg Except.ok (checkUnusedConstructor_withoutParens m interfaces)
  | unusedTopLevel | unusedTypeAlias =>
      rw [LintInput.ofModule_withoutParens]
      refine congrArg Except.ok (m.flatMap_declarations_withoutParens _ ?_)
      intro declaration
      cases declaration <;> rfl
  -- Imports have no parentheses: these rules see the rest of the module through its usage alone.
  | unusedImport | unusedImportAlias | unusedImportedValue =>
      rw [LintInput.ofModule_withoutParens]
      rfl

end Rule

/-- A module in which no parentheses are left at any depth, and otherwise the same, is evaluated to
exactly the same reports, whichever rules are disabled. -/
theorem RuleSet.parentheses_never_matter (rules : RuleSet) (m : Module)
    (interfaces : Table String Interface) :
    m.withoutParens.ParenFree ∧
      rules.evaluate m.withoutParens interfaces = rules.evaluate m interfaces := by
  refine ⟨m.withoutParens_parenFree, ?_⟩
  unfold RuleSet.evaluate
  simp only [Rule.check_withoutParens]

end ElmDiagnostics
