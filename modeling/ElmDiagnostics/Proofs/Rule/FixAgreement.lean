import ElmDiagnostics.Proofs.Diagnostic.Contents
import ElmDiagnostics.Proofs.QuickFix
import ElmDiagnostics.Proofs.Rule.ReportCode

/-!
Contract: how far two reports that count as the same carry the same fix.

Owns: that they do under every rule but the one for unused aliases, whose fix starts where the name
of the module ends, a place that the comparison of reports does not look at; and what this means for
a client that is not told of an evaluation because its reports count as unchanged.

Does not own: when a rule reports, and what applying a fix does to a module.
-/

set_option autoImplicit false

namespace ElmDiagnostics

open Diagnostic

theorem quoted_injective : Function.Injective quoted := by
  intro text other sameQuoted
  exact (String.append_right_inj _).mp ((String.append_left_inj _).mp sameQuoted)

namespace Rule

theorem code_injective : Function.Injective code := injective_of_readBack ofCode?_code

/-! ### Imports -/

/-- The report of an import says all that its fix depends on. -/
theorem unusedImportReport_eq_of_same {decl otherDecl : Import} {report other : Diagnostic}
    (reported : unusedImportReport decl = .ok report)
    (alsoReported : unusedImportReport otherDecl = .ok other) (same : Same report other) :
    report = other := by
  obtain ⟨lines, isLines, returned⟩ := bind_eq_ok reported
  obtain ⟨otherLines, isOtherLines, otherReturned⟩ := bind_eq_ok alsoReported
  cases returned
  cases otherReturned
  have sameRange : decl.span = otherDecl.span := congrArg Identity.range same
  have sameMessage : "Unused import " ++ quoted decl.name.text =
      "Unused import " ++ quoted otherDecl.name.text := congrArg Identity.message same
  have sameName := quoted_injective ((String.append_right_inj _).mp sameMessage)
  rw [sameRange, isOtherLines] at isLines
  rw [sameRange, sameName, Except.ok.inj isLines]

/-! ### Aliases -/

/-- The report is about the alias of an import, and its fix deletes, under the title, what stands
from the end of the module's name to the end of the alias. -/
def DropsAlias (title : String) (decl : Import) (report : Diagnostic) : Prop :=
  decl.rename.map (·.span) = some report.range ∧
    report.data =
      some (QuickFix.preferred title [.delete ⟨decl.name.span.stop, report.range.stop⟩]).toPayload

/-- Two reports that count as the same carry the same fix, unless they are about aliases. Then both
drop the alias, under one title, and carry the same fix if the names of the modules end at the same
place. -/
def FixesAgree (tree otherTree : Module) (report other : Diagnostic) : Prop :=
  (report.code ≠ unusedImportAlias.code → report.data = other.data) ∧
  (report.code = unusedImportAlias.code →
    ∃ title, ∃ decl ∈ tree.imports, ∃ otherDecl ∈ otherTree.imports,
      DropsAlias title decl report ∧ DropsAlias title otherDecl other ∧
      (report.data = other.data ↔ decl.name.span.stop = otherDecl.name.span.stop))

theorem dropsAlias_report {decl : Import} {rename : Name} (renamed : decl.rename = some rename) :
    DropsAlias ("Remove unused alias " ++ quoted rename.text) decl
      (unusedImportAliasReport decl rename) := by
  refine ⟨?_, rfl⟩
  rw [renamed]
  rfl

theorem DropsAlias.data_eq_iff {title : String} {decl otherDecl : Import}
    {report other : Diagnostic} (drops : DropsAlias title decl report)
    (alsoDrops : DropsAlias title otherDecl other) (sameRange : report.range = other.range) :
    report.data = other.data ↔ decl.name.span.stop = otherDecl.name.span.stop := by
  rw [drops.2, alsoDrops.2, sameRange, Option.some_inj, QuickFix.toPayload_injective.eq_iff]
  simp [QuickFix.preferred, TextEdit.delete]

theorem fixesAgree_alias {input otherInput : LintInput} {report other : Diagnostic}
    (isReport : report ∈ checkUnusedImportAlias input)
    (isOther : other ∈ checkUnusedImportAlias otherInput) (same : Same report other) :
    FixesAgree input.tree otherInput.tree report other := by
  obtain ⟨decl, isImport, rename, renamed, rfl⟩ := exists_alias_of_report report isReport
  obtain ⟨otherDecl, isOtherImport, otherRename, otherRenamed, rfl⟩ :=
    exists_alias_of_report other isOther
  have sameMessage : "Unused import alias " ++ quoted rename.text =
      "Unused import alias " ++ quoted otherRename.text := congrArg Identity.message same
  have sameAlias := quoted_injective ((String.append_right_inj _).mp sameMessage)
  have drops := dropsAlias_report renamed
  have alsoDrops := dropsAlias_report otherRenamed
  rw [← sameAlias] at alsoDrops
  refine ⟨fun notAlias => absurd rfl notAlias, fun _ => ?_⟩
  exact ⟨_, decl, isImport, otherDecl, isOtherImport, drops, alsoDrops,
    drops.data_eq_iff alsoDrops (congrArg Identity.range same)⟩

/-! ### All rules -/

theorem fixesAgree_check {rule : Rule} {input otherInput : LintInput}
    {reports otherReports : List Diagnostic} (succeeds : rule.check input = .ok reports)
    (alsoSucceeds : rule.check otherInput = .ok otherReports) {report other : Diagnostic}
    (isReport : report ∈ reports) (isOther : other ∈ otherReports) (same : Same report other) :
    FixesAgree input.tree otherInput.tree report other := by
  by_cases isAlias : rule = .unusedImportAlias
  · subst isAlias
    obtain rfl := Except.ok.inj succeeds
    obtain rfl := Except.ok.inj alsoSucceeds
    exact fixesAgree_alias isReport isOther same
  have itsCode : report.code = rule.code := labels_check succeeds report isReport
  refine ⟨fun _ => ?_, fun aliasCode => absurd (code_injective (itsCode ▸ aliasCode)) isAlias⟩
  by_cases isImport : rule = .unusedImport
  · subst isImport
    obtain ⟨decl, _, reported⟩ := exists_import_of_report succeeds report isReport
    obtain ⟨otherDecl, _, alsoReported⟩ := exists_import_of_report alsoSucceeds other isOther
    rw [unusedImportReport_eq_of_same reported alsoReported same]
  · obtain ⟨message, range, rfl⟩ := plain_check isImport isAlias succeeds report isReport
    obtain ⟨otherMessage, otherRange, rfl⟩ :=
      plain_check isImport isAlias alsoSucceeds other isOther
    rw [data_report, data_report]

end Rule

namespace RuleSet

theorem fixesAgree_evaluate {rules otherRules : RuleSet} {tree otherTree : Module}
    {interfaces otherInterfaces : Table String Interface} {reports otherReports : List Diagnostic}
    (succeeds : rules.evaluate tree interfaces = .ok reports)
    (alsoSucceeds : otherRules.evaluate otherTree otherInterfaces = .ok otherReports)
    {report other : Diagnostic} (isReport : report ∈ reports) (isOther : other ∈ otherReports)
    (same : Same report other) : Rule.FixesAgree tree otherTree report other := by
  obtain ⟨rule, ofRule, _, checked, isOfRule⟩ :=
    exists_check_of_mem_evaluate succeeds report isReport
  obtain ⟨otherRule, ofOtherRule, _, otherChecked, isOfOtherRule⟩ :=
    exists_check_of_mem_evaluate alsoSucceeds other isOther
  have sameCode : report.code = other.code := congrArg Identity.code same
  rw [Rule.labels_check checked report isOfRule,
    Rule.labels_check otherChecked other isOfOtherRule] at sameCode
  obtain rfl := Rule.code_injective sameCode
  exact Rule.fixesAgree_check checked otherChecked isOfRule isOfOtherRule same

end RuleSet

/-! ### What the client holds -/

namespace FileReport

theorem flatMap_slot (report : FileReport) :
    Kind.all.flatMap report.slot =
      (report.compile ++ report.externalLint ++ report.typeInference) ++ report.lint := by
  simp [Kind.all, slot]

/-- Once the lint slot takes an equal list, each diagnostic that the file shows was shown before,
or stands for one of the earlier list. -/
theorem exists_held_of_unchanged {report : FileReport} {diagnostics : List Diagnostic}
    (unchanged : report.changes .lint diagnostics = false) :
    ∀ shown ∈ (report.setSlot .lint diagnostics).merged, ∃ held ∈ report.merged,
      Same held shown ∧ (held = shown ∨ held ∈ report.lint ∧ shown ∈ diagnostics) := by
  intro shown isShown
  unfold merged distinct at isShown ⊢
  rw [mem_distinctFrom_iff, flatMap_slot, List.find?_append] at isShown
  rcases Option.or_eq_some_iff.mp isShown.2 with fromOthers | ⟨notFromOthers, fromLint⟩
  · refine ⟨shown, ?_, rfl, .inl rfl⟩
    rw [mem_distinctFrom_iff, flatMap_slot, List.find?_append]
    exact ⟨List.not_mem_nil, Option.or_eq_some_iff.mpr (.inl fromOthers)⟩
  · have isNew : shown ∈ diagnostics := List.mem_of_find?_eq_some fromLint
    have sameContents : SameProblems report.lint diagnostics :=
      (report.changes_eq_false_iff .lint diagnostics).mp unchanged
    have isOldIdentity : shown.identity ∈ report.lint.map identity :=
      ((sameProblems_iff_perm _ _).mp sameContents).mem_iff.mpr (List.mem_map_of_mem isNew)
    obtain ⟨old, isOld, sameIdentity⟩ := List.mem_map.mp isOldIdentity
    have isFound :
        (report.lint.find? fun diagnostic => diagnostic.identity = shown.identity).isSome :=
      List.find?_isSome.mpr ⟨old, isOld, decide_eq_true sameIdentity⟩
    obtain ⟨held, found⟩ := Option.isSome_iff_exists.mp isFound
    have heldSame : held.identity = shown.identity := by simpa using List.find?_some found
    refine ⟨held, ?_, heldSame, .inr ⟨List.mem_of_find?_eq_some found, isNew⟩⟩
    rw [mem_distinctFrom_iff, flatMap_slot, List.find?_append, heldSame]
    exact ⟨List.not_mem_nil, Option.or_eq_some_iff.mpr (.inr ⟨notFromOthers, found⟩)⟩

end FileReport

namespace RuleSet

/-- Among the reports of any two evaluations, those that count as the same agree in their fixes. So
when the reports of a file are replaced by others that count as unchanged, each diagnostic of the
file is held by a client that knows the old ones: as it is, or as an earlier report with which it
agrees in its fix. -/
theorem equal_reports_agree_in_fixes {rules otherRules : RuleSet} {tree otherTree : Module}
    {interfaces otherInterfaces : Table String Interface} {reports otherReports : List Diagnostic}
    (succeeds : rules.evaluate tree interfaces = .ok reports)
    (alsoSucceeds : otherRules.evaluate otherTree otherInterfaces = .ok otherReports) :
    (∀ report ∈ reports, ∀ other ∈ otherReports, Same report other →
      Rule.FixesAgree tree otherTree report other) ∧
    ∀ file : FileReport, file.lint = reports → file.changes .lint otherReports = false →
      ∀ shown ∈ (file.setSlot .lint otherReports).merged, ∃ held ∈ file.merged,
        Same held shown ∧ (held = shown ∨ Rule.FixesAgree tree otherTree held shown) := by
  have agree : ∀ report ∈ reports, ∀ other ∈ otherReports, Same report other →
      Rule.FixesAgree tree otherTree report other :=
    fun _ isReport _ isOther => fixesAgree_evaluate succeeds alsoSucceeds isReport isOther
  refine ⟨agree, fun file hasReports unchanged shown isShown => ?_⟩
  obtain ⟨held, isHeld, same, asBefore | ⟨isOld, isNew⟩⟩ :=
    FileReport.exists_held_of_unchanged unchanged shown isShown
  · exact ⟨held, isHeld, same, .inl asBefore⟩
  · exact ⟨held, isHeld, same, .inr (agree held (hasReports ▸ isOld) shown isNew same)⟩

end RuleSet

/-! ### An import that is pointed at another module -/

namespace Retargeted

/-- The alias stands on the line after the module's name. -/
def aliasName : Name := ⟨"H", ⟨1, 7⟩, ⟨1, 8⟩⟩

def importOf (moduleName : String) (stop : UInt32) : Import where
  name := ⟨moduleName, ⟨0, 7⟩, ⟨0, stop⟩⟩
  rename := some aliasName
  exposing := none
  span := ⟨⟨0, 0⟩, ⟨1, 8⟩⟩

def treeOf (decl : Import) : Module := ⟨none, [decl], [], decl.span⟩

def reportOf (decl : Import) : Diagnostic := Rule.unusedImportAliasReport decl aliasName

theorem evaluate_treeOf_importOf (moduleName : String) (stop : UInt32) :
    RuleSet.full.evaluate (treeOf (importOf moduleName stop)) .empty =
      .ok [reportOf (importOf moduleName stop)] := rfl

def before : Import := importOf "Html" 11

def after : Import := importOf "Html.Attributes" 22

/-- The module's name ends elsewhere, and the report counts as unchanged. -/
theorem alias_fix_differs_in_equal_reports :
    RuleSet.full.evaluate (treeOf before) .empty = .ok [reportOf before] ∧
    RuleSet.full.evaluate (treeOf after) .empty = .ok [reportOf after] ∧
    Same (reportOf before) (reportOf after) ∧
    Diagnostic.sameContents [reportOf before] [reportOf after] = true ∧
    (reportOf before).data ≠ (reportOf after).data := by
  refine ⟨evaluate_treeOf_importOf _ _, evaluate_treeOf_importOf _ _, by decide, by decide, ?_⟩
  intro sameData
  have sameFix := QuickFix.toPayload_injective (Option.some.inj sameData)
  exact absurd sameFix (by decide)

theorem alias_fixes_agree_apart_from_start :
    RuleSet.full.evaluate (treeOf before) .empty = .ok [reportOf before] ∧
    RuleSet.full.evaluate (treeOf after) .empty = .ok [reportOf after] ∧
    Rule.FixesAgree (treeOf before) (treeOf after) (reportOf before) (reportOf after) ∧
    ∃ held ∈ (FileReport.mk [] [] [] [reportOf before]).merged,
      Same held (reportOf after) ∧
      (held = reportOf after ∨
        Rule.FixesAgree (treeOf before) (treeOf after) held (reportOf after)) := by
  have succeeds := evaluate_treeOf_importOf "Html" 11
  have alsoSucceeds := evaluate_treeOf_importOf "Html.Attributes" 22
  obtain ⟨agree, held⟩ := RuleSet.equal_reports_agree_in_fixes succeeds alsoSucceeds
  refine ⟨succeeds, alsoSucceeds, ?_, ?_⟩
  · exact agree _ (List.mem_singleton_self _) _ (List.mem_singleton_self _) (by decide)
  · exact held ⟨[], [], [], [reportOf before]⟩ rfl (by decide) _ (List.mem_singleton_self _)

end Retargeted

end ElmDiagnostics
