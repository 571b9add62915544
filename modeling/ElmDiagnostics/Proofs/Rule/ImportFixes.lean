import ElmDiagnostics.Client.Message
import ElmDiagnostics.Proofs.Rule.FixAgreement
import ElmDiagnostics.Proofs.Rule.LineLimit

/-!
Contract: the reports that come with a fix, and the fix that a client is offered for each.

Owns: the actions that answer a list of reports, said by what is deleted; that an evaluation is
answered by one action for each report of an unused import or alias, in the order of the reports,
and by nothing else; and that it does not matter whether a fix is read from a report or from the
form in which a client hands the report back.

Does not own: which imports are unused, and what a file looks like after an edit.

The two ends of a fix never meet: a rule writes it into the payload of its report, and the answer to
the client is built from that payload alone.
-/

set_option autoImplicit false

namespace ElmDiagnostics

/-! ### What a fix deletes -/

/-- The action is the fix of a report about the import: it deletes the lines of an unused import, or
what stands between the name of the module and the end of an unused alias. -/
inductive Resolves (uri : Uri) (decl : Import) : Diagnostic → CodeAction → Prop where
  | lines {report : Diagnostic} {lines : Span} (hasCode : report.code = "unused_import")
      (isAbout : report.range = decl.span) (start : lines.start = ⟨decl.span.start.line, 0⟩)
      (stopLine : lines.stop.line.toNat = decl.span.stop.line.toNat + 1)
      (stopColumn : lines.stop.column = 0) :
      Resolves uri decl report
        { title := "Remove unused import " ++ quoted decl.name.text
          diagnostics := [report]
          changes := [(uri, [⟨lines, ""⟩])]
          isPreferred := true }
  | clause {report : Diagnostic} {rename : Name} (hasCode : report.code = "unused_alias")
      (renamed : decl.rename = some rename) (isAbout : report.range = rename.span) :
      Resolves uri decl report
        { title := "Remove unused alias " ++ quoted rename.text
          diagnostics := [report]
          changes := [(uri, [⟨⟨decl.name.span.stop, rename.span.stop⟩, ""⟩])]
          isPreferred := true }

/-- The actions answer the reports: one for each report of an unused import or alias, in their order
and about these imports, and none for any other report. -/
inductive Answers (uri : Uri) : List Import → List Diagnostic → List CodeAction → Prop where
  | nil : Answers uri [] [] []
  | offered {decl : Import} {decls : List Import} {report : Diagnostic} {reports : List Diagnostic}
      {action : CodeAction} {actions : List CodeAction} (resolves : Resolves uri decl report action)
      (others : Answers uri decls reports actions) :
      Answers uri (decl :: decls) (report :: reports) (action :: actions)
  | passed {decls : List Import} {report : Diagnostic} {reports : List Diagnostic}
      {actions : List CodeAction} (notImport : report.code ≠ "unused_import")
      (notAlias : report.code ≠ "unused_alias") (others : Answers uri decls reports actions) :
      Answers uri decls (report :: reports) actions

theorem Answers.append {uri : Uri} {decls otherDecls : List Import}
    {reports otherReports : List Diagnostic} {actions otherActions : List CodeAction}
    (answers : Answers uri decls reports actions)
    (alsoAnswers : Answers uri otherDecls otherReports otherActions) :
    Answers uri (decls ++ otherDecls) (reports ++ otherReports) (actions ++ otherActions) := by
  induction answers with
  | nil => exact alsoAnswers
  | offered resolves _ inductionHypothesis => exact .offered resolves inductionHypothesis
  | passed notImport notAlias _ inductionHypothesis =>
      exact .passed notImport notAlias inductionHypothesis

/-! ### Reading a fix off a report -/

theorem Diagnostic.quickFix?_withData (report : Diagnostic) {fix : QuickFix}
    (edits : fix.edits.isEmpty = false) :
    (report.withData fix.toPayload).quickFix? = some fix := by
  show (QuickFix.ofPayload? fix.toPayload).filter _ = _
  rw [QuickFix.ofPayload?_toPayload, Option.filter_some, edits]
  rfl

theorem quickFixes_cons_of_some {uri : Uri} {report : Diagnostic} {fix : QuickFix}
    (carries : report.quickFix? = some fix) (reports : List Diagnostic) :
    quickFixes uri (report :: reports) = fix.toAction uri report :: quickFixes uri reports := by
  simp [quickFixes, carries]

theorem quickFixes_cons_of_none {uri : Uri} {report : Diagnostic}
    (carriesNone : report.quickFix? = none) (reports : List Diagnostic) :
    quickFixes uri (report :: reports) = quickFixes uri reports := by
  simp [quickFixes, carriesNone]

/-- Reports that are answered apart are answered together. -/
theorem Answers.quickFixes_append {uri : Uri} {decls otherDecls : List Import}
    {reports otherReports : List Diagnostic}
    (answers : Answers uri decls reports (quickFixes uri reports))
    (alsoAnswers : Answers uri otherDecls otherReports (quickFixes uri otherReports)) :
    Answers uri (decls ++ otherDecls) (reports ++ otherReports)
      (quickFixes uri (reports ++ otherReports)) := by
  have appended : quickFixes uri (reports ++ otherReports) =
      quickFixes uri reports ++ quickFixes uri otherReports := List.filterMap_append
  rw [appended]
  exact answers.append alsoAnswers

/-! ### The reports of each rule -/

namespace Rule

/-- The import has an alias that nothing uses. -/
def hasUnusedAlias (usage : Usage) (decl : Import) : Bool :=
  decl.rename.any fun rename => !usage.isQualifierUsed rename.text

/-- The imports for which a rule offers a fix. -/
def fixedImports (rule : Rule) (tree : Module) : List Import :=
  match rule with
  | .unusedImport => tree.imports.filter (isUnusedImport (.ofModule tree))
  | .unusedImportAlias => tree.imports.filter (hasUnusedAlias (.ofModule tree))
  | _ => []

theorem answers_importReport {decl : Import} {report : Diagnostic}
    (reported : unusedImportReport decl = .ok report) (uri : Uri) :
    Answers uri [decl] [report] (quickFixes uri [report]) := by
  obtain ⟨lines, isLines, returned⟩ := bind_eq_ok reported
  cases returned
  obtain ⟨start, stopColumn, stopLine⟩ := (wholeLines_eq_ok_iff _ _).mp isLines
  rw [quickFixes_cons_of_some (Diagnostic.quickFix?_withData _ rfl)]
  exact .offered (.lines rfl rfl start stopLine stopColumn) .nil

theorem answers_aliasReports (usage : Usage) (decl : Import) (uri : Uri) :
    Answers uri ([decl].filter (hasUnusedAlias usage)) (unusedImportAliasOf usage decl)
      (quickFixes uri (unusedImportAliasOf usage decl)) := by
  unfold unusedImportAliasOf
  split
  next rename renamed =>
    split
    next isUsed =>
      have noUnused : hasUnusedAlias usage decl = false := by simp [hasUnusedAlias, renamed, isUsed]
      rw [List.filter_singleton, noUnused]
      exact .nil
    next isUnused =>
      have unused : hasUnusedAlias usage decl = true := by simp [hasUnusedAlias, renamed, isUnused]
      rw [List.filter_singleton, unused]
      unfold unusedImportAliasReport
      rw [quickFixes_cons_of_some (Diagnostic.quickFix?_withData _ rfl)]
      exact .offered (.clause rfl renamed rfl) .nil
  next notRenamed =>
    have noAlias : hasUnusedAlias usage decl = false := by simp [hasUnusedAlias, notRenamed]
    rw [List.filter_singleton, noAlias]
    exact .nil

theorem answers_unusedImports {decls : List Import} {reports : List Diagnostic}
    (succeeds : decls.mapM unusedImportReport = .ok reports) (uri : Uri) :
    Answers uri decls reports (quickFixes uri reports) := by
  induction decls generalizing reports with
  | nil =>
      cases succeeds
      exact .nil
  | cons decl rest inductionHypothesis =>
      rw [List.mapM_cons] at succeeds
      obtain ⟨report, reported, reportingRest⟩ := bind_eq_ok succeeds
      obtain ⟨others, reportedRest, returned⟩ := bind_eq_ok reportingRest
      cases returned
      exact (answers_importReport reported uri).quickFixes_append (inductionHypothesis reportedRest)

theorem answers_unusedAliases (usage : Usage) (decls : List Import) (uri : Uri) :
    Answers uri (decls.filter (hasUnusedAlias usage)) (decls.flatMap (unusedImportAliasOf usage))
      (quickFixes uri (decls.flatMap (unusedImportAliasOf usage))) := by
  induction decls with
  | nil => exact .nil
  | cons decl rest inductionHypothesis =>
      have answers := (answers_aliasReports usage decl uri).quickFixes_append inductionHypothesis
      rwa [← List.filter_append] at answers

theorem answers_plain {rule : Rule} (notImport : rule ≠ .unusedImport)
    (notAlias : rule ≠ .unusedImportAlias) {reports : List Diagnostic} (plain : rule.Plain reports)
    (uri : Uri) : Answers uri [] reports (quickFixes uri reports) := by
  induction reports with
  | nil => exact .nil
  | cons report rest inductionHypothesis =>
      obtain ⟨⟨message, range, rfl⟩, restPlain⟩ := List.forall_mem_cons.mp plain
      have carriesNone : (rule.report message range).quickFix? = none := by
        rw [Diagnostic.quickFix?, data_report]
        rfl
      rw [quickFixes_cons_of_none carriesNone]
      refine .passed ?_ ?_ (inductionHypothesis restPlain)
      · rw [code_report]
        exact code_injective.ne notImport
      · rw [code_report]
        exact code_injective.ne notAlias

theorem answers_check {rule : Rule} {tree : Module} {interfaces : Table String Interface}
    {reports : List Diagnostic} (succeeds : rule.check (.ofModule tree interfaces) = .ok reports)
    (uri : Uri) : Answers uri (rule.fixedImports tree) reports (quickFixes uri reports) := by
  cases rule with
  | unusedImport => exact answers_unusedImports succeeds uri
  | unusedImportAlias => exact Except.ok.inj succeeds ▸ answers_unusedAliases _ _ uri
  | _ =>
      have plain := plain_check (by decide) (by decide) succeeds
      exact answers_plain (by decide) (by decide) plain uri

/-- One rule after the other is answered on its own. -/
theorem answers_checks {rules : List Rule} {tree : Module} {interfaces : Table String Interface}
    {byRule : List (List Diagnostic)}
    (succeeds : rules.mapM (fun rule => rule.check (.ofModule tree interfaces)) = .ok byRule)
    (uri : Uri) :
    Answers uri (rules.flatMap fun rule => rule.fixedImports tree) byRule.flatten
      (quickFixes uri byRule.flatten) := by
  induction rules generalizing byRule with
  | nil =>
      cases succeeds
      exact .nil
  | cons rule rest inductionHypothesis =>
      rw [List.mapM_cons] at succeeds
      obtain ⟨ofRule, checkedRule, checkingRest⟩ := bind_eq_ok succeeds
      obtain ⟨ofRest, checkedRest, returned⟩ := bind_eq_ok checkingRest
      cases returned
      exact (answers_check checkedRule uri).quickFixes_append (inductionHypothesis checkedRest)

end Rule

/-! ### The client's side -/

namespace Client

/-- The fix of a diagnostic that the client hands back, if it edits anything. -/
def offeredFix? (shown : Json) : Option QuickFix :=
  ((shown.member? "data").bind QuickFix.ofPayload?).filter fun fix => !fix.edits.isEmpty

/-- The actions that answer the diagnostics that the client hands back. -/
def actionsFor (uri : Uri) (shown : List Json) : List Json :=
  shown.filterMap fun diagnostic =>
    (offeredFix? diagnostic).map fun fix =>
      .object [("diagnostics", .array [diagnostic]),
        ("edit", .object [("changes",
          .object [(uri.text, .array (fix.edits.map QuickFix.editJson))])]),
        ("isPreferred", .bool fix.isPreferred), ("kind", .string "quickfix"),
        ("title", .string fix.title)]

theorem member?_data_diagnosticJson (diagnostic : Diagnostic) :
    (diagnosticJson diagnostic).member? "data" = diagnostic.data := by
  obtain ⟨code, message, severity, range, tags, source, data⟩ := diagnostic
  cases data with
  | some payload => rfl
  | none => cases tags <;> rfl

/-- Nothing is lost on the way to the client and back. -/
theorem actionsFor_map_diagnosticJson (uri : Uri) (diagnostics : List Diagnostic) :
    actionsFor uri (diagnostics.map diagnosticJson) =
      (quickFixes uri diagnostics).map actionJson := by
  have sameFix (diagnostic : Diagnostic) :
      offeredFix? (diagnosticJson diagnostic) = diagnostic.quickFix? := by
    rw [offeredFix?, member?_data_diagnosticJson]
    rfl
  rw [actionsFor, List.filterMap_map, quickFixes, List.map_filterMap]
  apply List.filterMap_congr
  intro diagnostic _
  rw [Function.comp_apply, sameFix, Option.map_map]
  rfl

end Client

/-! ### All reports -/

namespace RuleSet

/-- An evaluation is answered by one preferred action for each report of an unused import or alias,
in the order of the reports: it carries that report, and deletes in this file alone the lines of
the import or the clause of the alias. No other report is answered. The answer is the same when it
is built from what the client hands back. -/
theorem import_reports_are_fixable {rules : RuleSet} {tree : Module}
    {interfaces : Table String Interface} {reports : List Diagnostic}
    (succeeds : rules.evaluate tree interfaces = .ok reports) (uri : Uri) :
    Answers uri (rules.enabled.flatMap fun rule => rule.fixedImports tree) reports
      (quickFixes uri reports) ∧
    Client.actionsFor uri (reports.map Client.diagnosticJson) =
      (quickFixes uri reports).map Client.actionJson := by
  refine ⟨?_, Client.actionsFor_map_diagnosticJson uri reports⟩
  obtain ⟨byRule, checked, returned⟩ := bind_eq_ok succeeds
  cases returned
  exact Rule.answers_checks checked uri

end RuleSet

/-- A port module without ports that imports one module over two lines and one under an alias. -/
def Module.leftoverImports : Module where
  header := some ⟨.port, ⟨"Main", ⟨⟨0, 12⟩, ⟨0, 16⟩⟩⟩, .all ⟨⟨0, 17⟩, ⟨0, 30⟩⟩, ⟨⟨0, 0⟩, ⟨0, 30⟩⟩⟩
  imports := [⟨⟨"Html", ⟨⟨3, 4⟩, ⟨3, 8⟩⟩⟩, none, none, ⟨⟨2, 0⟩, ⟨3, 8⟩⟩⟩,
    ⟨⟨"Json.Decode", ⟨⟨4, 7⟩, ⟨4, 18⟩⟩⟩, some ⟨"Decode", ⟨⟨4, 22⟩, ⟨4, 28⟩⟩⟩, none,
      ⟨⟨4, 0⟩, ⟨4, 28⟩⟩⟩]
  declarations := []
  span := ⟨⟨0, 0⟩, ⟨5, 0⟩⟩

theorem RuleSet.leftoverImports_answered :
    let uri : Uri := ⟨"file:///project/src/Main.elm"⟩
    ∃ reports, full.evaluate .leftoverImports .empty = .ok reports ∧
      reports.map (·.code) = ["unused_import", "unused_alias", "unnecessary_port_module"] ∧
      Answers uri Module.leftoverImports.imports reports (quickFixes uri reports) ∧
      (quickFixes uri reports).map (·.changes) =
        [[(uri, [⟨⟨⟨2, 0⟩, ⟨4, 0⟩⟩, ""⟩])], [(uri, [⟨⟨⟨4, 18⟩, ⟨4, 28⟩⟩, ""⟩])]] ∧
      Client.actionsFor uri (reports.map Client.diagnosticJson) =
        (quickFixes uri reports).map Client.actionJson := by
  intro uri
  have evaluated : full.evaluate .leftoverImports .empty = .ok _ := rfl
  obtain ⟨answers, sameForClient⟩ := import_reports_are_fixable evaluated uri
  exact ⟨_, evaluated, rfl, answers, rfl, sameForClient⟩

end ElmDiagnostics
