import ElmDiagnostics.Proofs.Rule.ReportCode
import Mathlib.Data.List.Basic

/-!
Contract: disabling rules takes their reports away and does nothing else.

Owns: the reports of a module as those of one rule after the other; that leaving rules out leaves
out the reports with their codes; the grouping of reports by rule; and what all reports have in
common.

Does not own: when evaluation fails. Only a success of all rules says something about fewer rules.

Rules do not share anything but what they look at. So the reports of a rule are the same whichever
other rules are run, and since each rule labels its reports with a code of its own, the reports of
a rule can be told from all others by their code.
-/

set_option autoImplicit false

namespace ElmDiagnostics

/-! ### Rules one by one -/

namespace Rule

/-- The reports of a rule; none when its check fails. -/
def found (rule : Rule) (input : LintInput) : List Diagnostic :=
  match rule.check input with
  | .ok reports => reports
  | .error _ => []

theorem check_eq_found {rule : Rule} {input : LintInput}
    (succeeds : ∃ reports, rule.check input = .ok reports) :
    rule.check input = .ok (rule.found input) := by
  obtain ⟨reports, checked⟩ := succeeds
  rw [found, checked]

theorem labels_found (rule : Rule) (input : LintInput) : rule.Labels (rule.found input) := by
  unfold found
  split
  next reports checked => exact labels_check checked
  next => simp [Labels]

/-- Choosing rules by their codes is choosing reports by their codes. -/
theorem flatMap_found_filter (input : LintInput) (keeps : String → Bool) (rules : List Rule) :
    (rules.flatMap fun rule => rule.found input).filter (fun report => keeps report.code) =
      (rules.filter fun rule => keeps rule.code).flatMap fun rule => rule.found input := by
  induction rules with
  | nil => rfl
  | cons rule rest inductionHypothesis =>
      have sameCode := rule.labels_found input
      rw [List.flatMap_cons, List.filter_append, inductionHypothesis, List.filter_cons]
      by_cases isKept : keeps rule.code = true
      · have allKept : (rule.found input).filter (fun report => keeps report.code) =
            rule.found input := by
          rw [List.filter_eq_self]
          intro report isReport
          rw [sameCode report isReport, isKept]
        rw [if_pos isKept, allKept, List.flatMap_cons]
      · have noneKept : (rule.found input).filter (fun report => keeps report.code) = [] := by
          rw [List.filter_eq_nil_iff]
          intro report isReport
          rw [sameCode report isReport]
          exact isKept
        rw [if_neg isKept, noneKept, List.nil_append]

theorem mem_all (rule : Rule) : rule ∈ all := by cases rule <;> decide

theorem all_filter_code (rule : Rule) :
    (all.filter fun other => decide (other.code = rule.code)) = [rule] := by
  cases rule <;> decide

/-! ### The form of a report -/

/-- The codes of the rules that look for something unused. -/
def unusedCodes : List String :=
  ["unused_top_level", "unused_import", "unused_alias", "unused_imported_value", "unused_pattern",
    "unused_type_alias", "unused_value_constructor"]

/-- What reports have in common: they are warnings, those of something unused are tagged so, and
those of unused imports and aliases carry a payload. -/
structure WellFormed (report : Diagnostic) : Prop where
  severity : report.severity = .warning
  source : report.source = "Elm"
  tags : report.tags = if report.code ∈ unusedCodes then [.unnecessary] else []
  data : report.data.isSome = true ↔ report.code = "unused_import" ∨ report.code = "unused_alias"

theorem findsUnused_iff (rule : Rule) : rule.findsUnused = true ↔ rule.code ∈ unusedCodes := by
  cases rule <;> decide

theorem tags_report (rule : Rule) (message : String) (range : Span) :
    (rule.report message range).tags = if rule.code ∈ unusedCodes then [.unnecessary] else [] := by
  simp only [report_eq, findsUnused_iff]

theorem wellFormed_report {rule : Rule} (notImport : rule ≠ .unusedImport)
    (notAlias : rule ≠ .unusedImportAlias) (message : String) (range : Span) :
    WellFormed (rule.report message range) where
  severity := by rw [report_eq]; rfl
  source := by rw [report_eq]; rfl
  tags := by rw [tags_report, code_report]
  data := by
    rw [data_report, code_report]
    cases rule with
    | unusedImport => exact absurd rfl notImport
    | unusedImportAlias => exact absurd rfl notAlias
    | _ => decide

theorem wellFormed_withData {rule : Rule}
    (offersFix : rule = .unusedImport ∨ rule = .unusedImportAlias) (message : String)
    (range : Span) (payload : Json) : WellFormed ((rule.report message range).withData payload) where
  severity := by rw [report_eq]; rfl
  source := by rw [report_eq]; rfl
  tags := (tags_report rule message range).trans (by rw [← code_report rule message range]; rfl)
  data := by
    have itsCode : ((rule.report message range).withData payload).code = rule.code :=
      code_report rule message range
    rw [itsCode]
    refine iff_of_true rfl ?_
    rcases offersFix with rfl | rfl
    · exact .inl rfl
    · exact .inr rfl

theorem wellFormed_check {rule : Rule} {input : LintInput} {reports : List Diagnostic}
    (succeeds : rule.check input = .ok reports) : ∀ report ∈ reports, WellFormed report := by
  intro report isReport
  by_cases isImport : rule = .unusedImport
  · subst isImport
    obtain ⟨decl, _, reported⟩ := exists_import_of_report succeeds report isReport
    obtain ⟨lines, _, returned⟩ := bind_eq_ok reported
    cases returned
    exact wellFormed_withData (.inl rfl) _ _ _
  · by_cases isAlias : rule = .unusedImportAlias
    · subst isAlias
      obtain rfl := Except.ok.inj succeeds
      obtain ⟨decl, _, rename, _, rfl⟩ := exists_alias_of_report report isReport
      exact wellFormed_withData (.inr rfl) _ _ _
    · obtain ⟨message, range, rfl⟩ := plain_check isImport isAlias succeeds report isReport
      exact wellFormed_report isImport isAlias message range

end Rule

/-! ### Sets of rules -/

namespace RuleSet

theorem isEnabled_without (codes : List String) (rule : Rule) :
    (without codes).isEnabled rule = decide (rule.code ∉ codes) := by
  have disabled : rule ∈ (without codes).disabled ↔ rule.code ∈ codes := by
    rw [without, List.mem_filterMap]
    constructor
    · rintro ⟨code, isDisabled, itsRule⟩
      have itsCode : rule.code = code := by simpa using List.find?_some itsRule
      exact itsCode ▸ isDisabled
    · intro isDisabled
      exact ⟨rule.code, isDisabled, rule.ofCode?_code⟩
  simp only [isEnabled, disabled]

theorem enabled_full : full.enabled = Rule.all := rfl

theorem enabled_without (codes : List String) :
    (without codes).enabled = Rule.all.filter fun rule => decide (rule.code ∉ codes) := by
  rw [enabled, funext (isEnabled_without codes)]

theorem evaluate_eq_ok {rules : RuleSet} {tree : Module} {interfaces : Table String Interface}
    (each : ∀ rule ∈ rules.enabled,
      ∃ reports, rule.check (.ofModule tree interfaces) = .ok reports) :
    rules.evaluate tree interfaces =
      .ok (rules.enabled.flatMap fun rule => rule.found (.ofModule tree interfaces)) := by
  have checked := mapM_eq_ok fun rule isEnabled => Rule.check_eq_found (each rule isEnabled)
  rw [evaluate, checked]
  exact congrArg Except.ok List.flatMap_def.symm

theorem check_of_evaluate {rules : RuleSet} {tree : Module} {interfaces : Table String Interface}
    {reports : List Diagnostic} (succeeds : rules.evaluate tree interfaces = .ok reports) :
    ∀ rule ∈ rules.enabled, ∃ ofRule, rule.check (.ofModule tree interfaces) = .ok ofRule := by
  obtain ⟨byRule, checked, _⟩ := bind_eq_ok succeeds
  exact exists_of_mapM checked

/-- Once all rules succeed on a module, leaving out the rules of some codes leaves out the reports
with these codes and keeps all others in their order. The reports of each rule stand together, in
the order of rules, and all have the form that their code calls for. -/
theorem disabling_only_filters (tree : Module) (interfaces : Table String Interface)
    {reports : List Diagnostic} (succeeds : full.evaluate tree interfaces = .ok reports) :
    (∀ codes, (without codes).evaluate tree interfaces =
      .ok (reports.filter fun report => report.code ∉ codes)) ∧
    reports = Rule.all.flatMap (fun rule => reports.filter fun report => report.code = rule.code) ∧
    ∀ report ∈ reports, Rule.WellFormed report := by
  have each (rule : Rule) : ∃ ofRule, rule.check (.ofModule tree interfaces) = .ok ofRule :=
    check_of_evaluate succeeds rule rule.mem_all
  have allReports : full.evaluate tree interfaces = .ok (full.enabled.flatMap fun rule =>
      rule.found (.ofModule tree interfaces)) := evaluate_eq_ok fun rule _ => each rule
  obtain rfl := Except.ok.inj (succeeds.symm.trans allReports)
  refine ⟨fun codes => ?_, ?_, ?_⟩
  · rw [evaluate_eq_ok fun rule _ => each rule, enabled_full, enabled_without]
    exact congrArg Except.ok (Rule.flatMap_found_filter _ (fun code => decide (code ∉ codes)) _).symm
  · rw [enabled_full]
    apply List.flatMap_congr
    intro rule _
    have itsReports := Rule.flatMap_found_filter (.ofModule tree interfaces)
      (fun code => decide (code = rule.code)) Rule.all
    rw [itsReports, Rule.all_filter_code, List.flatMap_singleton]
  · intro report isReport
    obtain ⟨rule, ofRule, _, checked, isItsReport⟩ :=
      exists_check_of_mem_evaluate succeeds report isReport
    exact Rule.wellFormed_check checked report isItsReport

end RuleSet

/-- A port module that so far only imports: one module by its name, one under an alias. -/
def Module.barelyBegun : Module where
  header := some ⟨.port, ⟨"Main", default⟩, .all default, default⟩
  imports := [⟨⟨"Html", default⟩, none, none, default⟩,
    ⟨⟨"Http", default⟩, some ⟨"Web", default⟩, none, default⟩]
  declarations := []
  span := default

theorem RuleSet.barelyBegun_without_alias :
    let codes := ["unused_alias", "no_such_rule", "unused_alias"]
    ∃ reports fewer, full.evaluate .barelyBegun .empty = .ok reports ∧
      reports.map (·.code) = ["unused_import", "unused_alias", "unnecessary_port_module"] ∧
      (∀ report ∈ reports, Rule.WellFormed report) ∧
      (without codes).evaluate .barelyBegun .empty = .ok fewer ∧
      fewer.map (·.code) = ["unused_import", "unnecessary_port_module"] := by
  intro codes
  obtain ⟨filters, _, wellFormed⟩ := disabling_only_filters .barelyBegun .empty rfl
  exact ⟨_, _, rfl, rfl, wellFormed, filters codes, rfl⟩

end ElmDiagnostics
