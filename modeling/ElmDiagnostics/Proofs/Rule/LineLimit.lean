import ElmDiagnostics.Proofs.Rule.Disabling
import ElmDiagnostics.Proofs.Usage.NameUse

/-!
Contract: the one way in which the rules can fail.

Owns: when a coordinate has a successor and a span has whole lines; which imports nothing is used
of, by occurrence; that every rule but the one for unused imports always succeeds; and that an
evaluation fails exactly if an unused import ends on the last line that has a number.

Does not own: what the rules report.

Trees are not assumed to be sensible. A span may end before it starts and spans may overlap: only
the line on which an import ends matters.
-/

set_option autoImplicit false

namespace ElmDiagnostics

/-! ### Coordinates -/

theorem nextCoordinate_eq_ok_iff (coordinate next : UInt32) :
    nextCoordinate coordinate = .ok next ↔ next.toNat = coordinate.toNat + 1 := by
  unfold nextCoordinate
  split
  next fits =>
    have sum : (coordinate + 1).toNat = coordinate.toNat + 1 := by
      rw [UInt32.toNat_add]
      exact Nat.mod_eq_of_lt fits
    rw [Except.ok.injEq, ← sum, UInt32.toNat_inj, eq_comm]
  next exceeds =>
    refine iff_of_false (by simp) fun isNext => exceeds ?_
    rw [← isNext]
    exact next.toNat_lt_size

theorem exists_nextCoordinate_iff (coordinate : UInt32) :
    (∃ next, nextCoordinate coordinate = .ok next) ↔ coordinate.toNat ≠ 4294967295 := by
  simp only [nextCoordinate_eq_ok_iff]
  constructor
  · rintro ⟨next, isNext⟩ isLast
    have bound := next.toNat_lt
    omega
  · intro notLast
    have bound := coordinate.toNat_lt
    have fits : coordinate.toNat + 1 < UInt32.size := by
      rw [UInt32.size]
      omega
    exact ⟨.ofNat (coordinate.toNat + 1), UInt32.toNat_ofNat_of_lt' fits⟩

/-- A coordinate can only be missing because it does not fit. -/
theorem eq_overflow_iff {α : Type} (outcome : Except CoordinateError α) :
    outcome = .error .overflow ↔ ¬ ∃ value, outcome = .ok value := by
  cases outcome with
  | ok value => simp
  | error cause => cases cause; simp

/-! ### Imports -/

/-- Nothing is used of the import: it has neither an alias nor an exposing clause, and no name of
the module is written with its name in front. -/
structure Module.NeverUses (m : Module) (decl : Import) : Prop where
  noAlias : decl.rename = none
  exposesNothing : decl.exposing = none
  noQualifier : ¬ m.QualifierOccurs decl.name.text

namespace Rule

theorem isUnusedImport_iff_neverUses (m : Module) (decl : Import) :
    isUnusedImport (.ofModule m) decl = true ↔ m.NeverUses decl := by
  have isUsed := Usage.isQualifierUsed_iff_occurs m decl.name.text
  simp only [isUnusedImport, Bool.and_eq_true, Option.isNone_iff_eq_none, Bool.not_eq_true',
    ← Bool.not_eq_true, isUsed]
  constructor
  · rintro ⟨⟨noAlias, exposesNothing⟩, noQualifier⟩
    exact ⟨noAlias, exposesNothing, noQualifier⟩
  · rintro ⟨noAlias, exposesNothing, noQualifier⟩
    exact ⟨⟨noAlias, exposesNothing⟩, noQualifier⟩

theorem wholeLines_eq_ok_iff (span lines : Span) :
    wholeLines span = .ok lines ↔
      lines.start = ⟨span.start.line, 0⟩ ∧ lines.stop.column = 0 ∧
        lines.stop.line.toNat = span.stop.line.toNat + 1 := by
  rw [← nextCoordinate_eq_ok_iff]
  obtain ⟨start, stopLine, stopColumn⟩ := lines
  constructor
  · intro succeeds
    obtain ⟨lineAfter, isNext, returned⟩ := bind_eq_ok succeeds
    cases returned
    exact ⟨rfl, rfl, isNext⟩
  · rintro ⟨rfl, rfl, isNext⟩
    rw [wholeLines, isNext]
    rfl

theorem exists_unusedImportReport_iff (decl : Import) :
    (∃ report, unusedImportReport decl = .ok report) ↔
      decl.span.stop.line.toNat ≠ 4294967295 := by
  rw [← exists_nextCoordinate_iff]
  constructor
  · rintro ⟨report, reported⟩
    obtain ⟨lines, isLines, _⟩ := bind_eq_ok reported
    obtain ⟨lineAfter, isNext, _⟩ := bind_eq_ok isLines
    exact ⟨lineAfter, isNext⟩
  · rintro ⟨lineAfter, isNext⟩
    have isLines : wholeLines decl.span = .ok ⟨⟨decl.span.start.line, 0⟩, ⟨lineAfter, 0⟩⟩ :=
      (wholeLines_eq_ok_iff _ _).mpr ⟨rfl, rfl, (nextCoordinate_eq_ok_iff _ _).mp isNext⟩
    rw [unusedImportReport, isLines]
    exact ⟨_, rfl⟩

/-! ### Rules -/

theorem exists_check_of_ne {rule : Rule} (notImport : rule ≠ .unusedImport) (input : LintInput) :
    ∃ reports, rule.check input = .ok reports := by
  cases rule with
  | unusedImport => exact absurd rfl notImport
  | _ => exact ⟨_, rfl⟩

theorem exists_checkUnusedImport_iff (m : Module) (interfaces : Table String Interface) :
    (∃ reports, checkUnusedImport (.ofModule m interfaces) = .ok reports) ↔
      ∀ decl ∈ m.imports, m.NeverUses decl → decl.span.stop.line.toNat ≠ 4294967295 := by
  have unused (decl : Import) :
      decl ∈ m.imports.filter (isUnusedImport (.ofModule m)) ↔
        decl ∈ m.imports ∧ m.NeverUses decl := by
    rw [List.mem_filter, isUnusedImport_iff_neverUses]
  constructor
  · rintro ⟨reports, succeeds⟩ decl isImport neverUsed
    rw [← exists_unusedImportReport_iff]
    exact exists_of_mapM succeeds decl ((unused decl).mpr ⟨isImport, neverUsed⟩)
  · intro belowLimit
    refine exists_mapM_of_each fun decl isUnused => ?_
    obtain ⟨isImport, neverUsed⟩ := (unused decl).mp isUnused
    exact (exists_unusedImportReport_iff decl).mpr (belowLimit decl isImport neverUsed)

end Rule

/-! ### Evaluation -/

namespace RuleSet

theorem exists_evaluate_iff (rules : RuleSet) (tree : Module)
    (interfaces : Table String Interface) :
    (∃ reports, rules.evaluate tree interfaces = .ok reports) ↔
      (rules.isEnabled .unusedImport = true →
        ∃ reports, Rule.checkUnusedImport (.ofModule tree interfaces) = .ok reports) := by
  constructor
  · rintro ⟨reports, succeeds⟩ isEnabled
    exact check_of_evaluate succeeds .unusedImport
      (List.mem_filter.mpr ⟨Rule.mem_all _, isEnabled⟩)
  · intro importsSucceed
    refine ⟨_, evaluate_eq_ok fun rule isRun => ?_⟩
    by_cases isImport : rule = .unusedImport
    · subst isImport
      exact importsSucceed (List.mem_filter.mp isRun).2
    · exact Rule.exists_check_of_ne isImport _

/-- Some import that nothing is used of ends on the last line, and the rule that would delete its
lines is run. -/
def HitsLineLimit (rules : RuleSet) (tree : Module) : Prop :=
  rules.isEnabled .unusedImport = true ∧
    ∃ decl ∈ tree.imports, tree.NeverUses decl ∧ decl.span.stop.line.toNat = 4294967295

/-- Whatever the positions in a module, an evaluation overflows exactly if it hits the line limit,
and in every other case it yields a list of reports. -/
theorem evaluation_fails_only_at_line_limit (rules : RuleSet) (tree : Module)
    (interfaces : Table String Interface) :
    (rules.evaluate tree interfaces = .error .overflow ↔ rules.HitsLineLimit tree) ∧
    ((∃ reports, rules.evaluate tree interfaces = .ok reports) ↔ ¬ rules.HitsLineLimit tree) := by
  have succeeds :
      (∃ reports, rules.evaluate tree interfaces = .ok reports) ↔ ¬ rules.HitsLineLimit tree := by
    rw [exists_evaluate_iff, Rule.exists_checkUnusedImport_iff]
    simp only [HitsLineLimit, not_and, not_exists, ne_eq]
  refine ⟨?_, succeeds⟩
  rw [eq_overflow_iff, succeeds, not_not]

/-- An unused import that ends on the last line, even before it starts. -/
example :
    let tree : Module :=
      ⟨none, [⟨⟨"Html", default⟩, none, none, ⟨⟨4294967295, 9⟩, ⟨4294967295, 0⟩⟩⟩], [], default⟩
    full.evaluate tree .empty = .error .overflow ∧
      (without ["unused_import"]).evaluate tree .empty = .ok [] := by
  exact ⟨rfl, rfl⟩

end RuleSet

end ElmDiagnostics
