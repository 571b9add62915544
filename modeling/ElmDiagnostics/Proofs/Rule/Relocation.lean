import ElmDiagnostics.Proofs.Rule.Parentheses
import ElmDiagnostics.Proofs.Rule.ReportCode
import ElmDiagnostics.Proofs.Syntax.Spans
import ElmDiagnostics.Proofs.Usage.Relocation

/-!
Contract: reformatting a module moves its reports and changes nothing else about them.

Owns: for each shape that a rule looks for and for each rule, that it finds in a moved module what
it finds in the module, at the moved place; hence that a module is evaluated to the same reports up
to their ranges; and that every range is the span of a node or a name of the module.

Does not own: payloads. The edits of a fix are computed from lines and ends of spans, so they do not
follow a move.
-/

set_option autoImplicit false

namespace ElmDiagnostics

variable (move : Span → Span)

/-! ### Moved reports -/

/-- The second report says what the first says, at the moved place. -/
structure Diagnostic.MovedBy (before after : Diagnostic) : Prop where
  code : after.code = before.code
  message : after.message = before.message
  severity : after.severity = before.severity
  source : after.source = before.source
  tags : after.tags = before.tags
  range : after.range = move before.range

/-- The same reports, one after the other, at moved places. -/
abbrev ReportsMoved : List Diagnostic → List Diagnostic → Prop :=
  List.Forall₂ (Diagnostic.MovedBy move)

section Reports

variable {move} {α β : Type}

theorem Rule.report_movedBy (rule : Rule) (message : String) (range : Span) :
    (rule.report message range).MovedBy move (rule.report message (move range)) := by
  rw [report_eq, report_eq]
  exact ⟨rfl, rfl, rfl, rfl, rfl, rfl⟩

theorem Rule.report_withData_movedBy (rule : Rule) (message : String) (range : Span)
    (data moved : Json) :
    ((rule.report message range).withData data).MovedBy move
      ((rule.report message (move range)).withData moved) := by
  rw [report_eq, report_eq]
  exact ⟨rfl, rfl, rfl, rfl, rfl, rfl⟩

theorem ReportsMoved.unless (rule : Rule) (message : String) (range : Span) (isUsed : Bool) :
    ReportsMoved move (if isUsed then [] else [rule.report message range])
      (if isUsed then [] else [rule.report message (move range)]) := by
  cases isUsed with
  | true => exact .nil
  | false => exact .cons (rule.report_movedBy message range) .nil

theorem ReportsMoved.map {items : List α} {report reportMoved : α → Diagnostic}
    (each : ∀ item, (report item).MovedBy move (reportMoved item)) :
    ReportsMoved move (items.map report) (items.map reportMoved) := by
  refine List.forall₂_map_left_iff.mpr (List.forall₂_map_right_iff.mpr ?_)
  exact List.forall₂_same.mpr fun item _ => each item

theorem ReportsMoved.flatMap {items : List α} {place : α → β} {gather : α → List Diagnostic}
    {gatherMoved : β → List Diagnostic}
    (each : ∀ item, ReportsMoved move (gather item) (gatherMoved (place item))) :
    ReportsMoved move (items.flatMap gather) ((items.map place).flatMap gatherMoved) := by
  rw [List.flatMap_map]
  refine List.rel_flatten (List.forall₂_map_left_iff.mpr (List.forall₂_map_right_iff.mpr ?_))
  exact List.forall₂_same.mpr fun item _ => each item

theorem ReportsMoved.of_ok {ε : Type} {before after reports moved : List Diagnostic}
    (related : ReportsMoved move before after)
    (checked : (.ok before : Except ε (List Diagnostic)) = .ok reports)
    (checkedMoved : (.ok after : Except ε (List Diagnostic)) = .ok moved) :
    ReportsMoved move reports moved := by
  cases checked
  cases checkedMoved
  exact related

end Reports

theorem LintInput.ofModule_relocate (m : Module) (interfaces : Table String Interface) :
    LintInput.ofModule (m.relocate move) interfaces =
      { LintInput.ofModule m interfaces with tree := m.relocate move } := by
  rw [LintInput.ofModule, Usage.ofModule_relocate, LintInput.ofModule]

namespace Rule

/-! ### Shapes of lists -/

theorem relocate_keepsLists : KeepsLists (Expr.relocate move) where
  isListLiteral := Expr.isListLiteral_relocate move
  listItems := by
    intro expr
    rw [listItems?, Expr.unparen_relocate, listItems?]
    cases expr.unparen with
    | list items span => exact congrArg some (Expr.relocateOfList_eq_map move items)
    | _ => rfl
  isListConcat := by
    intro expr
    rw [isListConcat, Expr.unparen_relocate, isListConcat]
    cases expr.unparen with
    | var name =>
        simp only [Expr.relocate, QualifiedName.qualifierText_relocate]
        rfl
    | _ => rfl

theorem relocate_keepsOutermost (expr : Expr) : KeepsOutermost (Expr.relocate move) expr := by
  cases expr with
  | binary used left right span =>
      refine ⟨fun symbol => ?_, rfl⟩
      rw [Expr.relocate, operands?, operands?]
      show (if used.text = symbol then _ else _) = _
      split <;> rfl
  | call function args span =>
      refine ⟨fun _ => rfl, ?_⟩
      rw [Expr.relocate, Expr.relocateOfList_eq_map]
      rfl
  | _ => exact ⟨fun _ => rfl, rfl⟩

/-! ### Shapes of patterns -/

theorem boolPattern?_relocate (pattern : Pattern) :
    boolPattern? (pattern.relocate move) = boolPattern? pattern := by
  rw [boolPattern?, Pattern.unparen_relocate, boolPattern?]
  cases pattern.unparen with
  | ctor name args span =>
      cases args with
      | nil =>
          simp only [Pattern.relocate, Pattern.relocateOfList,
            QualifiedName.qualifierText_relocate]
          rfl
      | cons arg rest => rfl
  | _ => rfl

theorem isWildcard_relocate (pattern : Pattern) :
    isWildcard (pattern.relocate move) = isWildcard pattern := by
  rw [isWildcard, Pattern.unparen_relocate, isWildcard]
  cases pattern.unparen <;> rfl

theorem isBooleanSplit_relocate (first second : Pattern) :
    isBooleanSplit (first.relocate move) (second.relocate move) = isBooleanSplit first second := by
  unfold isBooleanSplit
  rw [boolPattern?_relocate, boolPattern?_relocate, isWildcard_relocate]

theorem isBooleanCase_relocate (expr : Expr) :
    isBooleanCase (expr.relocate move) = isBooleanCase expr := by
  cases expr with
  | caseOf scrutinee branches span =>
      match branches with
      | [] | [⟨_, _, _⟩] | ⟨_, _, _⟩ :: ⟨_, _, _⟩ :: ⟨_, _, _⟩ :: _ => rfl
      | [⟨first, _, _⟩, ⟨second, _, _⟩] =>
          show (isBooleanSplit (first.relocate move) (second.relocate move) ||
            isBooleanSplit (second.relocate move) (first.relocate move)) = _
          rw [isBooleanSplit_relocate, isBooleanSplit_relocate, isBooleanCase]
  | _ => rfl

/-! ### What is gathered from each part -/

theorem operatorCallOf_relocate (expr : Expr) :
    ReportsMoved move (operatorCallOf expr) (operatorCallOf (expr.relocate move)) := by
  cases expr with
  | call function args span =>
      match args with
      | [] | [_] | _ :: _ :: _ :: _ => exact .nil
      | [left, right] =>
          simp only [Expr.relocate, Expr.relocateOfList, operatorCallOf, Expr.unparen_relocate]
          cases function.unparen with
          | operator symbol => exact .cons (report_movedBy _ _ _) .nil
          | _ => exact .nil
  | _ => exact .nil

theorem unusedBinders_relocate (patterns : List Pattern) (mentioned : List String) :
    ReportsMoved move (unusedBinders patterns mentioned)
      (unusedBinders (Pattern.relocateOfList move patterns) mentioned) := by
  unfold unusedBinders
  rw [Pattern.bindersOfList_relocate, List.filter_map, List.map_map]
  exact .map fun binder => report_movedBy _ _ _

theorem unusedParams_relocate (decl : ValueDecl) :
    ReportsMoved move (unusedParams decl) (unusedParams (decl.relocate move)) := by
  unfold unusedParams
  rw [ValueDecl.relocate, Expr.localValues_relocate]
  exact unusedBinders_relocate move decl.params _

theorem unusedBindersOf_relocate (expr : Expr) :
    ReportsMoved move (unusedBindersOf expr) (unusedBindersOf (expr.relocate move)) := by
  have sameNames := expr.localValues_relocate move
  cases expr with
  | lambda params body span =>
      rw [Expr.relocate, unusedBindersOf, unusedBindersOf, body.localValues_relocate]
      exact unusedBinders_relocate move params _
  | caseOf scrutinee branches span =>
      rw [Expr.relocate, Expr.relocateOfBranches_eq_map, unusedBindersOf, unusedBindersOf]
      refine .flatMap fun branch => ?_
      rw [CaseBranch.relocate, branch.body.localValues_relocate]
      exact unusedBinders_relocate move [branch.pattern] _
  | letIn declarations body span =>
      rw [Expr.relocate] at sameNames ⊢
      rw [unusedBindersOf, unusedBindersOf, sameNames, Expr.relocateOfLetDecls_eq_map]
      refine .flatMap fun declaration => ?_
      cases declaration with
      | value decl => exact unusedParams_relocate move decl
      | destructure pattern body span => exact unusedBinders_relocate move [pattern] _
  | _ => exact .nil

theorem letSignatures_relocate (expr : Expr) :
    letSignatures (expr.relocate move) = (letSignatures expr).map (TypeExpr.relocate move) := by
  cases expr with
  | letIn declarations body span =>
      rw [Expr.relocate, Expr.relocateOfLetDecls_eq_map, letSignatures, letSignatures,
        List.filterMap_map, List.map_filterMap]
      congr 1
      funext declaration
      cases declaration with
      | value decl => exact Signature.type_relocate move decl.signature
      | destructure pattern body span => rfl
  | _ => rfl

theorem typeRootsOf_relocate (declaration : Declaration) :
    typeRootsOf (declaration.relocate move) =
      (typeRootsOf declaration).map (TypeExpr.relocate move) := by
  cases declaration with
  | value decl =>
      show ((decl.signature.map (Signature.relocate move)).map (·.type)).toList ++
        (decl.body.relocate move).subexprs.flatMap letSignatures = _
      rw [Signature.type_relocate, Expr.subexprs_relocate, List.flatMap_map, typeRootsOf,
        List.map_append, List.map_flatMap, Option.toList_map]
      simp only [letSignatures_relocate]
  | customType decl =>
      show (decl.ctors.map (CtorDecl.relocate move)).flatMap (·.args) = _
      rw [List.flatMap_map, typeRootsOf, List.map_flatMap]
      congr 1
      funext ctor
      exact TypeExpr.relocateOfList_eq_map move ctor.args
  | _ => rfl

/-! ### Rules -/

variable (m : Module) (interfaces : Table String Interface)

theorem reportExprs_relocate (rule : Rule) (message : String) {hasShape : Expr → Bool}
    (kept : ∀ expr : Expr, hasShape (expr.relocate move) = hasShape expr) :
    ReportsMoved move (reportExprs rule message hasShape (LintInput.ofModule m interfaces))
      (reportExprs rule message hasShape (LintInput.ofModule (m.relocate move) interfaces)) := by
  rw [reportExprs_eq_flatMap, reportExprs_eq_flatMap]
  show ReportsMoved move (m.exprs.flatMap _) ((m.relocate move).exprs.flatMap _)
  rw [m.exprs_relocate]
  refine .flatMap fun expr => ?_
  rw [kept, Expr.span_relocate]
  cases hasShape expr with
  | true => exact .cons (rule.report_movedBy _ _) .nil
  | false => exact .nil

theorem unusedTopLevelOf_relocate (usage : Usage) (declaration : Declaration) :
    ReportsMoved move (unusedTopLevelOf usage declaration)
      (unusedTopLevelOf usage (declaration.relocate move)) := by
  cases declaration with
  | value decl => exact .unless _ _ _ _
  | customType decl => exact .unless _ _ _ _
  | _ => exact .nil

theorem unusedTypeAliasOf_relocate (usage : Usage) (declaration : Declaration) :
    ReportsMoved move (unusedTypeAliasOf usage declaration)
      (unusedTypeAliasOf usage (declaration.relocate move)) := by
  cases declaration with
  | typeAlias decl => exact .unless _ _ _ _
  | _ => exact .nil

theorem exposesOpenType_relocate (typeName : String) :
    exposesOpenType (m.relocate move) typeName = exposesOpenType m typeName := by
  unfold exposesOpenType
  rw [m.exposedItems_relocate, List.any_map]
  congr 1
  funext item
  cases item with
  | type name constructors span => cases constructors <;> rfl
  | _ => rfl

theorem unusedConstructorsOf_relocate (usage : Usage) (declaration : Declaration) :
    ReportsMoved move (unusedConstructorsOf m usage declaration)
      (unusedConstructorsOf (m.relocate move) usage (declaration.relocate move)) := by
  cases declaration with
  | customType decl =>
      simp only [unusedConstructorsOf, Declaration.relocate, exposesOpenType_relocate]
      show ReportsMoved move (if exposesOpenType m decl.name.text then _ else _)
        (if exposesOpenType m decl.name.text then _ else _)
      split
      · exact .nil
      · rw [List.filter_map, List.map_map]
        exact .map fun ctor => report_movedBy _ _ _
  | _ => exact .nil

theorem unusedItem_relocate (moduleName : String) (item : ExposedItem) :
    ReportsMoved move (unusedItem (LintInput.ofModule m interfaces) moduleName item)
      (unusedItem (LintInput.ofModule (m.relocate move) interfaces) moduleName
        (item.relocate move)) := by
  rw [LintInput.ofModule_relocate]
  cases item with
  | value name => exact .unless _ _ _ _
  | operator symbol => exact .unless _ _ _ _
  | type name constructors span =>
      cases constructors with
      | none => exact .unless _ _ _ _
      | some dots =>
          cases known : interfaces.get? moduleName with
          | none =>
              simp only [unusedItem, LintInput.ofModule, known]
              exact .nil
          | some interface =>
              simp only [ExposedItem.relocate, unusedItem, LintInput.ofModule, known]
              exact .unless _ _ _ _

theorem unusedItemsOf_relocate (decl : Import) :
    ReportsMoved move (unusedItemsOf (LintInput.ofModule m interfaces) decl)
      (unusedItemsOf (LintInput.ofModule (m.relocate move) interfaces) (decl.relocate move)) := by
  unfold unusedItemsOf Import.relocate
  cases decl.exposing with
  | none => exact .nil
  | some exposing =>
      dsimp only [Option.map_some]
      rw [exposing.items_relocate]
      exact .flatMap fun item => unusedItem_relocate move m interfaces decl.name.text item

theorem unusedImportAliasOf_relocate (usage : Usage) (decl : Import) :
    ReportsMoved move (unusedImportAliasOf usage decl)
      (unusedImportAliasOf usage (decl.relocate move)) := by
  unfold unusedImportAliasOf Import.relocate
  cases decl.rename with
  | none => exact .nil
  | some rename =>
      show ReportsMoved move (if usage.isQualifierUsed rename.text then [] else _)
        (if usage.isQualifierUsed rename.text then [] else _)
      split
      · exact .nil
      · exact .cons (report_withData_movedBy _ _ _ _ _) .nil

theorem isUnusedImport_relocate (usage : Usage) (decl : Import) :
    isUnusedImport usage (decl.relocate move) = isUnusedImport usage decl := by
  unfold isUnusedImport Import.relocate
  rw [Option.isNone_map, Option.isNone_map]
  rfl

/-- Where both imports have a line after them, the reports differ in place and fix only. -/
theorem unusedImportReport_relocate {decl : Import} {report moved : Diagnostic}
    (reported : unusedImportReport decl = .ok report)
    (reportedMoved : unusedImportReport (decl.relocate move) = .ok moved) :
    report.MovedBy move moved := by
  obtain ⟨lines, _, returned⟩ := bind_eq_ok reported
  obtain ⟨movedLines, _, movedReturned⟩ := bind_eq_ok reportedMoved
  cases returned
  cases movedReturned
  exact report_withData_movedBy _ _ _ _ _

theorem checkUnusedImport_relocate {reports moved : List Diagnostic}
    (checked : checkUnusedImport (LintInput.ofModule m interfaces) = .ok reports)
    (checkedMoved : checkUnusedImport (LintInput.ofModule (m.relocate move) interfaces) =
      .ok moved) :
    ReportsMoved move reports moved := by
  have sameImports : (m.imports.map (Import.relocate move)).filter
      (isUnusedImport (Usage.ofModule m)) =
        (m.imports.filter (isUnusedImport (Usage.ofModule m))).map (Import.relocate move) := by
    rw [List.filter_map]
    congr 2
    funext decl
    exact isUnusedImport_relocate move (Usage.ofModule m) decl
  rw [LintInput.ofModule_relocate] at checkedMoved
  unfold checkUnusedImport at checked checkedMoved
  have placed : List.Forall₂ (fun decl other => other = decl.relocate move)
      (m.imports.filter (isUnusedImport (Usage.ofModule m)))
      ((m.imports.map (Import.relocate move)).filter (isUnusedImport (Usage.ofModule m))) := by
    rw [sameImports]
    exact List.forall₂_map_right_iff.mpr (List.forall₂_same.mpr fun _ _ => rfl)
  refine forall₂_of_mapM placed ?_ checked checkedMoved
  rintro decl _ rfl report movedReport reported reportedMoved
  exact unusedImportReport_relocate move reported reportedMoved

theorem checkSingleFieldRecord_relocate :
    ReportsMoved move (checkSingleFieldRecord (LintInput.ofModule m interfaces))
      (checkSingleFieldRecord (LintInput.ofModule (m.relocate move) interfaces)) := by
  have types : ((m.relocate move).declarations.flatMap typeRootsOf).flatMap TypeExpr.subtypes =
      ((m.declarations.flatMap typeRootsOf).flatMap TypeExpr.subtypes).map
        (TypeExpr.relocate move) := by
    simp only [Module.relocate, List.flatMap_map, List.map_flatMap, typeRootsOf_relocate,
      List.flatMap_assoc, TypeExpr.subtypes_relocate]
  unfold checkSingleFieldRecord
  dsimp only [LintInput.ofModule]
  rw [types, List.filter_map, List.map_map]
  have sameShape : TypeExpr.isSingleFieldRecord ∘ TypeExpr.relocate move =
      TypeExpr.isSingleFieldRecord := funext (TypeExpr.isSingleFieldRecord_relocate move)
  rw [sameShape]
  refine .map fun type => ?_
  rw [Function.comp_apply, TypeExpr.span_relocate]
  exact report_movedBy _ _ _

theorem checkPortModuleWithoutPorts_relocate :
    ReportsMoved move (checkPortModuleWithoutPorts (LintInput.ofModule m interfaces))
      (checkPortModuleWithoutPorts (LintInput.ofModule (m.relocate move) interfaces)) := by
  have samePorts : (m.relocate move).portDecls = [] ↔ m.portDecls = [] := by
    rw [m.portDecls_relocate, List.map_eq_nil_iff]
  have movedHeader : (m.relocate move).header = m.header.map (ModuleHeader.relocate move) := rfl
  unfold checkPortModuleWithoutPorts LintInput.ofModule
  dsimp only
  rw [movedHeader]
  cases m.header with
  | none => exact .nil
  | some header =>
      dsimp only [Option.map_some]
      by_cases portless : header.kind = .port ∧ m.portDecls = []
      · have movedPortless : (header.relocate move).kind = .port ∧
            (m.relocate move).portDecls = [] := ⟨portless.1, samePorts.mpr portless.2⟩
        rw [if_pos portless, if_pos movedPortless]
        exact .cons (report_movedBy _ _ _) .nil
      · have notMoved : ¬ ((header.relocate move).kind = .port ∧
            (m.relocate move).portDecls = []) :=
          fun movedPortless => portless ⟨movedPortless.1, samePorts.mp movedPortless.2⟩
        rw [if_neg portless, if_neg notMoved]
        exact .nil

theorem checkUnusedPatternVariable_relocate :
    ReportsMoved move (checkUnusedPatternVariable (LintInput.ofModule m interfaces))
      (checkUnusedPatternVariable (LintInput.ofModule (m.relocate move) interfaces)) := by
  show ReportsMoved move (m.valueDecls.flatMap unusedParams ++ m.exprs.flatMap unusedBindersOf)
    ((m.relocate move).valueDecls.flatMap unusedParams ++
      (m.relocate move).exprs.flatMap unusedBindersOf)
  rw [m.valueDecls_relocate, m.exprs_relocate]
  exact List.rel_append (ReportsMoved.flatMap (unusedParams_relocate move))
    (ReportsMoved.flatMap (unusedBindersOf_relocate move))

theorem checkUnusedConstructor_relocate :
    ReportsMoved move (checkUnusedConstructor (LintInput.ofModule m interfaces))
      (checkUnusedConstructor (LintInput.ofModule (m.relocate move) interfaces)) := by
  rw [LintInput.ofModule_relocate]
  simp only [checkUnusedConstructor, m.exposesAll_relocate]
  show ReportsMoved move (if m.exposesAll then _ else _) (if m.exposesAll then _ else _)
  split
  · exact .nil
  · exact .flatMap (unusedConstructorsOf_relocate move m (Usage.ofModule m))

/-- Each rule that does not fail reports the same, at moved places. -/
theorem check_relocate (rule : Rule) {reports moved : List Diagnostic}
    (checked : rule.check (LintInput.ofModule m interfaces) = .ok reports)
    (checkedMoved : rule.check (LintInput.ofModule (m.relocate move) interfaces) = .ok moved) :
    ReportsMoved move reports moved := by
  cases rule with
  | unusedImport => exact checkUnusedImport_relocate move m interfaces checked checkedMoved
  | booleanCase =>
      exact .of_ok (reportExprs_relocate move m interfaces _ _ (isBooleanCase_relocate move))
        checked checkedMoved
  | consOntoListLiteral =>
      exact .of_ok
        (reportExprs_relocate move m interfaces _ _ fun expr =>
          (relocate_keepsLists move).isConsOntoListLiteral (relocate_keepsOutermost move expr))
        checked checkedMoved
  | concatOfListLiterals =>
      exact .of_ok
        (reportExprs_relocate move m interfaces _ _ fun expr =>
          (relocate_keepsLists move).isConcatOfListLiterals (relocate_keepsOutermost move expr))
        checked checkedMoved
  | concatOntoSingleton =>
      exact .of_ok
        (reportExprs_relocate move m interfaces _ _ fun expr =>
          (relocate_keepsLists move).isConcatOntoSingleton (relocate_keepsOutermost move expr))
        checked checkedMoved
  | flattenedListLiterals =>
      exact .of_ok
        (reportExprs_relocate move m interfaces _ _ fun expr =>
          (relocate_keepsLists move).isFlattenedListLiterals (relocate_keepsOutermost move expr))
        checked checkedMoved
  | operatorCall =>
      refine .of_ok ?_ checked checkedMoved
      unfold checkOperatorCall
      show ReportsMoved move (m.exprs.flatMap _) ((m.relocate move).exprs.flatMap _)
      rw [m.exprs_relocate]
      exact .flatMap (operatorCallOf_relocate move)
  | unusedPatternVariable =>
      exact .of_ok (checkUnusedPatternVariable_relocate move m interfaces) checked checkedMoved
  | singleFieldRecord =>
      exact .of_ok (checkSingleFieldRecord_relocate move m interfaces) checked checkedMoved
  | portModuleWithoutPorts =>
      exact .of_ok (checkPortModuleWithoutPorts_relocate move m interfaces) checked checkedMoved
  | unusedConstructor =>
      exact .of_ok (checkUnusedConstructor_relocate move m interfaces) checked checkedMoved
  | unusedTopLevel =>
      rw [LintInput.ofModule_relocate] at checkedMoved
      exact .of_ok (.flatMap (unusedTopLevelOf_relocate move (Usage.ofModule m)))
        checked checkedMoved
  | unusedTypeAlias =>
      rw [LintInput.ofModule_relocate] at checkedMoved
      exact .of_ok (.flatMap (unusedTypeAliasOf_relocate move (Usage.ofModule m)))
        checked checkedMoved
  | unusedImportAlias =>
      rw [LintInput.ofModule_relocate] at checkedMoved
      exact .of_ok (.flatMap (unusedImportAliasOf_relocate move (Usage.ofModule m)))
        checked checkedMoved
  | unusedImportedValue =>
      exact .of_ok (.flatMap (unusedItemsOf_relocate move m interfaces)) checked checkedMoved

end Rule

/-! ### Whole modules -/

theorem Span.exists_other (span : Span) : ∃ other : Span, other ≠ span := by
  by_cases isDefault : span = default
  · refine ⟨⟨⟨1, 0⟩, default⟩, ?_⟩
    rw [isDefault]
    decide
  · exact ⟨default, Ne.symm isDefault⟩

namespace RuleSet

variable (rules : RuleSet) {m : Module} {interfaces : Table String Interface}

theorem evaluate_relocate {reports moved : List Diagnostic}
    (evaluated : rules.evaluate m interfaces = .ok reports)
    (evaluatedMoved : rules.evaluate (m.relocate move) interfaces = .ok moved) :
    ReportsMoved move reports moved := by
  obtain ⟨perRule, checked, returned⟩ := bind_eq_ok evaluated
  obtain ⟨movedPerRule, checkedMoved, movedReturned⟩ := bind_eq_ok evaluatedMoved
  cases returned
  cases movedReturned
  have sameRules : List.Forall₂ Eq rules.enabled rules.enabled := List.forall₂_refl _
  refine List.rel_flatten (forall₂_of_mapM sameRules ?_ checked checkedMoved)
  rintro rule _ rfl perReports movedReports
  exact rule.check_relocate move m interfaces

/-- A range that is no span of the module could be moved without moving the module. -/
theorem range_mem_spans {reports : List Diagnostic}
    (evaluated : rules.evaluate m interfaces = .ok reports) :
    ∀ report ∈ reports, report.range ∈ m.spans := by
  intro report isReport
  by_contra isForeign
  obtain ⟨other, isOther⟩ := Span.exists_other report.range
  let aside : Span → Span := fun span => if span = report.range then other else span
  have unmoved : m.relocate aside = m := by
    refine Module.relocate_eq_self fun span isSpan => if_neg ?_
    rintro rfl
    exact isForeign isSpan
  have movedAside : ReportsMoved aside reports reports := by
    refine rules.evaluate_relocate aside evaluated ?_
    rw [unmoved]
    exact evaluated
  have stays : report.range = aside report.range :=
    (List.forall₂_same.mp movedAside report isReport).range
  exact isOther (stays.trans (if_pos rfl)).symm

/-- Reformatting moves reports and changes nothing else about them: with every span of the module
moved, whichever way, evaluation gives the same reports one after the other, each at the moved
place. Every report stands at the span of a node or a name of the module. -/
theorem reformatting_only_moves_reports (rules : RuleSet) (m : Module)
    (interfaces : Table String Interface) (move : Span → Span) {reports moved : List Diagnostic}
    (evaluated : rules.evaluate m interfaces = .ok reports)
    (evaluatedMoved : rules.evaluate (m.relocate move) interfaces = .ok moved) :
    reports.length = moved.length ∧ List.Forall₂ (Diagnostic.MovedBy move) reports moved ∧
      ∀ report ∈ reports, report.range ∈ m.spans := by
  have related := rules.evaluate_relocate move evaluated evaluatedMoved
  exact ⟨related.length_eq, related, rules.range_mem_spans evaluated⟩

end RuleSet

/-- The first columns of a line. -/
def Span.onLine (line : UInt32) : Span := ⟨⟨line, 0⟩, ⟨line, 4⟩⟩

/-- Five lines further down. -/
def Span.lower (span : Span) : Span :=
  ⟨⟨span.start.line + 5, span.start.column⟩, ⟨span.stop.line + 5, span.stop.column⟩⟩

/-- A port module without ports, with an import that nothing uses, an alias that nothing uses and
an item that is consed onto a list literal. -/
def Module.leftovers : Module where
  header := some ⟨.port, ⟨"Main", .onLine 0⟩, .all (.onLine 0), .onLine 0⟩
  imports := [⟨⟨"Html", .onLine 1⟩, none, none, .onLine 1⟩,
    ⟨⟨"Http", .onLine 2⟩, some ⟨"Web", .onLine 3⟩, none, .onLine 2⟩]
  declarations := [.value ⟨none, ⟨"spare", .onLine 4⟩, [],
    .binary ⟨"::", .onLine 5⟩ (.unit (.onLine 6)) (.list [] (.onLine 7)) (.onLine 8), .onLine 9⟩]
  span := .onLine 10

theorem RuleSet.leftovers_reports_move :
    let rules := without ["unused_top_level"]
    ∃ reports moved, rules.evaluate .leftovers .empty = .ok reports ∧
      rules.evaluate (Module.leftovers.relocate .lower) .empty = .ok moved ∧
      reports.map (·.range) = [.onLine 1, .onLine 3, .onLine 8, .onLine 0] ∧
      reports.length = moved.length ∧ List.Forall₂ (Diagnostic.MovedBy .lower) reports moved ∧
      ∀ report ∈ reports, report.range ∈ Module.leftovers.spans :=
  ⟨_, _, rfl, rfl, rfl,
    reformatting_only_moves_reports (without ["unused_top_level"]) .leftovers .empty .lower rfl rfl⟩

end ElmDiagnostics
