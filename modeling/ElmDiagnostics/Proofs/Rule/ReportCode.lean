import ElmDiagnostics.Proofs.Outcome
import ElmDiagnostics.Rule.RuleSet

/-!
Contract: what the reports of a rule are made of.

Owns: that every rule labels its reports with its own code and no other, so that evaluating a module
without some rules yields no report under their codes; that reports are plain, except for those of
the two rules that offer a fix; and the import behind each of these.

Does not own: when a rule reports, and when evaluation fails.
-/

set_option autoImplicit false

namespace ElmDiagnostics

namespace Rule

/-- A report in full. -/
theorem report_eq (rule : Rule) (message : String) (range : Span) :
    rule.report message range =
      { Diagnostic.new rule.code message .warning range with
        tags := if rule.findsUnused then [.unnecessary] else [] } := by
  unfold report Diagnostic.withTag
  dsimp only
  split <;> rfl

theorem code_report (rule : Rule) (message : String) (range : Span) :
    (rule.report message range).code = rule.code := by
  rw [report_eq]
  rfl

theorem data_report (rule : Rule) (message : String) (range : Span) :
    (rule.report message range).data = none := by
  rw [report_eq]
  rfl

/-- All of the reports carry the rule's code. -/
def Labels (rule : Rule) (reports : List Diagnostic) : Prop :=
  ∀ report ∈ reports, report.code = rule.code

/-- All of the reports are the rule's, with nothing attached. -/
def Plain (rule : Rule) (reports : List Diagnostic) : Prop :=
  ∀ report ∈ reports, ∃ message range, report = rule.report message range

namespace Plain

variable {rule : Rule} {α : Type}

theorem nil : rule.Plain [] := by simp [Plain]

theorem singleton {message : String} {range : Span} :
    rule.Plain [rule.report message range] := by
  intro report isReport
  exact ⟨message, range, List.mem_singleton.mp isReport⟩

theorem ite {condition : Prop} [Decidable condition] {first second : List Diagnostic}
    (firstPlain : rule.Plain first) (secondPlain : rule.Plain second) :
    rule.Plain (if condition then first else second) := by
  split
  · exact firstPlain
  · exact secondPlain

theorem append {first second : List Diagnostic} (firstPlain : rule.Plain first)
    (secondPlain : rule.Plain second) : rule.Plain (first ++ second) := by
  intro report isReport
  rcases List.mem_append.mp isReport with isFirst | isSecond
  · exact firstPlain report isFirst
  · exact secondPlain report isSecond

theorem flatMap {items : List α} {reports : α → List Diagnostic}
    (plain : ∀ item, rule.Plain (reports item)) : rule.Plain (items.flatMap reports) := by
  intro report isReport
  obtain ⟨item, _, isItem⟩ := List.mem_flatMap.mp isReport
  exact plain item report isItem

theorem map {items : List α} {message : α → String} {range : α → Span} :
    rule.Plain (items.map fun item => rule.report (message item) (range item)) := by
  intro report isReport
  obtain ⟨item, _, rfl⟩ := List.mem_map.mp isReport
  exact ⟨message item, range item, rfl⟩

theorem labels {reports : List Diagnostic} (plain : rule.Plain reports) : rule.Labels reports := by
  intro report isReport
  obtain ⟨message, range, rfl⟩ := plain report isReport
  exact code_report rule message range

end Plain

/-! ### One rule after the other -/

theorem plain_reportExprs (rule : Rule) (message : String) (hasShape : Expr → Bool)
    (input : LintInput) : rule.Plain (reportExprs rule message hasShape input) := .map

theorem plain_unusedTopLevel (input : LintInput) :
    unusedTopLevel.Plain (checkUnusedTopLevel input) := by
  apply Plain.flatMap
  intro declaration
  unfold unusedTopLevelOf
  dsimp only
  split
  · exact .ite .nil .singleton
  · exact .nil

theorem plain_unusedTypeAlias (input : LintInput) :
    unusedTypeAlias.Plain (checkUnusedTypeAlias input) := by
  apply Plain.flatMap
  intro declaration
  unfold unusedTypeAliasOf
  split
  · exact .ite .nil .singleton
  · exact .nil

theorem plain_unusedConstructor (input : LintInput) :
    unusedConstructor.Plain (checkUnusedConstructor input) := by
  unfold checkUnusedConstructor
  apply Plain.ite .nil
  apply Plain.flatMap
  intro declaration
  unfold unusedConstructorsOf
  split
  · exact .ite .nil .map
  · exact .nil

theorem plain_unusedImportedValue (input : LintInput) :
    unusedImportedValue.Plain (checkUnusedImportedValue input) := by
  apply Plain.flatMap
  intro decl
  unfold unusedItemsOf
  split
  · apply Plain.flatMap
    intro item
    unfold unusedItem
    split
    · exact .ite .nil .singleton
    · exact .ite .nil .singleton
    · dsimp only
      split
      · exact .ite .nil .singleton
      · exact .nil
  · exact .nil

theorem plain_unusedPatternVariable (input : LintInput) :
    unusedPatternVariable.Plain (checkUnusedPatternVariable input) := by
  apply Plain.append
  · exact .flatMap fun decl => .map
  · apply Plain.flatMap
    intro expr
    unfold unusedBindersOf
    split
    · exact .map
    · exact .flatMap fun branch => .map
    · apply Plain.flatMap
      intro declaration
      split
      · exact .map
      · exact .map
    · exact .nil

theorem plain_operatorCall (input : LintInput) :
    operatorCall.Plain (checkOperatorCall input) := by
  apply Plain.flatMap
  intro expr
  unfold operatorCallOf
  split
  · split
    · exact .singleton
    · exact .nil
  · exact .nil

theorem plain_portModuleWithoutPorts (input : LintInput) :
    portModuleWithoutPorts.Plain (checkPortModuleWithoutPorts input) := by
  unfold checkPortModuleWithoutPorts
  split
  · exact .ite .singleton .nil
  · exact .nil

/-- Only the rules for imports and their aliases attach something to their reports. -/
theorem plain_check {rule : Rule} (notImport : rule ≠ .unusedImport)
    (notAlias : rule ≠ .unusedImportAlias) {input : LintInput} {reports : List Diagnostic}
    (succeeds : rule.check input = .ok reports) : rule.Plain reports := by
  cases rule with
  | unusedImport => exact absurd rfl notImport
  | unusedImportAlias => exact absurd rfl notAlias
  | unusedTopLevel => exact Except.ok.inj succeeds ▸ plain_unusedTopLevel input
  | unusedImportedValue => exact Except.ok.inj succeeds ▸ plain_unusedImportedValue input
  | unusedPatternVariable => exact Except.ok.inj succeeds ▸ plain_unusedPatternVariable input
  | unusedTypeAlias => exact Except.ok.inj succeeds ▸ plain_unusedTypeAlias input
  | unusedConstructor => exact Except.ok.inj succeeds ▸ plain_unusedConstructor input
  | singleFieldRecord => exact Except.ok.inj succeeds ▸ Plain.map
  | portModuleWithoutPorts => exact Except.ok.inj succeeds ▸ plain_portModuleWithoutPorts input
  | operatorCall => exact Except.ok.inj succeeds ▸ plain_operatorCall input
  | booleanCase | consOntoListLiteral | concatOfListLiterals | concatOntoSingleton
  | flattenedListLiterals => exact Except.ok.inj succeeds ▸ plain_reportExprs _ _ _ input

/-! ### Reports with a fix -/

theorem exists_import_of_report {input : LintInput} {reports : List Diagnostic}
    (succeeds : checkUnusedImport input = .ok reports) :
    ∀ report ∈ reports, ∃ decl ∈ input.tree.imports, unusedImportReport decl = .ok report := by
  intro report isReport
  obtain ⟨decl, isUnused, reported⟩ := exists_of_mem_mapM succeeds report isReport
  exact ⟨decl, (List.mem_filter.mp isUnused).1, reported⟩

theorem exists_alias_of_report {input : LintInput} :
    ∀ report ∈ checkUnusedImportAlias input, ∃ decl ∈ input.tree.imports, ∃ rename,
      decl.rename = some rename ∧ report = unusedImportAliasReport decl rename := by
  intro report isReport
  obtain ⟨decl, isImport, isItsReport⟩ := List.mem_flatMap.mp isReport
  unfold unusedImportAliasOf at isItsReport
  split at isItsReport
  next rename renamed =>
    split at isItsReport
    · exact absurd isItsReport List.not_mem_nil
    · exact ⟨decl, isImport, rename, renamed, List.mem_singleton.mp isItsReport⟩
  next => exact absurd isItsReport List.not_mem_nil

theorem labels_check {rule : Rule} {input : LintInput} {reports : List Diagnostic}
    (succeeds : rule.check input = .ok reports) : rule.Labels reports := by
  by_cases isImport : rule = .unusedImport
  · subst isImport
    intro report isReport
    obtain ⟨decl, _, reported⟩ := exists_import_of_report succeeds report isReport
    obtain ⟨lines, _, returned⟩ := bind_eq_ok reported
    cases returned
    exact code_report _ _ _
  · by_cases isAlias : rule = .unusedImportAlias
    · subst isAlias
      obtain rfl := Except.ok.inj succeeds
      intro report isReport
      obtain ⟨decl, _, rename, _, rfl⟩ := exists_alias_of_report report isReport
      exact code_report _ _ _
    · exact (plain_check isImport isAlias succeeds).labels

theorem ofCode?_code (rule : Rule) : ofCode? rule.code = some rule := by
  cases rule <;> decide

end Rule

namespace RuleSet

/-- Every report comes from the check of an enabled rule. -/
theorem exists_check_of_mem_evaluate {rules : RuleSet} {tree : Module}
    {interfaces : Table String Interface} {reports : List Diagnostic}
    (succeeds : rules.evaluate tree interfaces = .ok reports) :
    ∀ report ∈ reports, ∃ rule ofRule, rules.isEnabled rule = true ∧
      rule.check (.ofModule tree interfaces) = .ok ofRule ∧ report ∈ ofRule := by
  obtain ⟨byRule, checked, returned⟩ := bind_eq_ok succeeds
  cases returned
  intro report isReport
  obtain ⟨ofRule, isOfRule, isMember⟩ := List.mem_flatten.mp isReport
  obtain ⟨rule, isEnabled, itsReports⟩ := exists_of_mem_mapM checked ofRule isOfRule
  exact ⟨rule, ofRule, (List.mem_filter.mp isEnabled).2, itsReports, isMember⟩

/-- No report carries the code of a disabled rule. -/
theorem code_not_mem_of_evaluate_without {codes : List String} {tree : Module}
    {interfaces : Table String Interface} {reports : List Diagnostic}
    (succeeds : (without codes).evaluate tree interfaces = .ok reports) :
    ∀ report ∈ reports, report.code ∉ codes := by
  intro report isReport isDisabled
  obtain ⟨rule, ofRule, isEnabled, itsReports, isMember⟩ :=
    exists_check_of_mem_evaluate succeeds report isReport
  have itsCode := Rule.labels_check itsReports report isMember
  have notDisabled : rule ∉ (without codes).disabled := of_decide_eq_true isEnabled
  apply notDisabled
  apply List.mem_filterMap.mpr
  exact ⟨report.code, isDisabled, itsCode ▸ rule.ofCode?_code⟩

end RuleSet

end ElmDiagnostics
