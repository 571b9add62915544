import ElmDiagnostics.Proofs.Rule.ReportCode
import ElmDiagnostics.Proofs.Usage.NameUse

/-!
Contract: no rule reports a name that still occurs.

Owns: what the rules for imports and constructors judge by occurrence; and that every report of
these rules is about something of the module whose name does not occur any more.

Does not own: the constructors that come with an open type of an import.
-/

set_option autoImplicit false

namespace ElmDiagnostics

open Diagnostic

/-- What is judged by whether its name occurs: an import as a whole, the alias of an import, an item
that an import exposes, or a constructor. -/
inductive Subject where
  | wholeImport (decl : Import)
  | importAlias (name : Name)
  | exposedItem (item : ExposedItem)
  | ctor (decl : CtorDecl)

namespace Subject

/-- The report that the subject is not used, without a fix. -/
def report : Subject → Diagnostic
  | .wholeImport decl =>
      Rule.unusedImport.report ("Unused import " ++ quoted decl.name.text) decl.span
  | .importAlias name =>
      Rule.unusedImportAlias.report ("Unused import alias " ++ quoted name.text) name.span
  | .exposedItem (.value name) =>
      Rule.unusedImportedValue.report ("Unused imported value " ++ quoted name.text) name.span
  | .exposedItem (.operator symbol) =>
      Rule.unusedImportedValue.report
        ("Unused imported value " ++ quoted ("(" ++ symbol.text ++ ")")) symbol.span
  | .exposedItem (.type name _ _) =>
      Rule.unusedImportedValue.report ("Unused imported type " ++ quoted name.text) name.span
  | .ctor decl =>
      Rule.unusedConstructor.report ("Unused value constructor " ++ quoted decl.name.text)
        decl.name.span

/-- The subject is written in the module. -/
def IsOf (m : Module) : Subject → Prop
  | .wholeImport decl => decl ∈ m.imports
  | .importAlias name => ∃ decl ∈ m.imports, decl.rename = some name
  | .exposedItem item =>
      ∃ decl ∈ m.imports, ∃ exposing, decl.exposing = some exposing ∧ item ∈ exposing.items
  | .ctor decl => ∃ owner, .customType owner ∈ m.declarations ∧ decl ∈ owner.ctors

/-- The name of the subject occurs in the module. The alias of a record occurs as a value too. -/
def Occurs (m : Module) : Subject → Prop
  | .wholeImport decl => m.QualifierOccurs decl.name.text
  | .importAlias name => m.QualifierOccurs name.text
  | .exposedItem (.value name) => m.ValueOccurs name.text
  | .exposedItem (.operator symbol) => m.OperatorOccurs symbol.text
  | .exposedItem (.type name _ _) => m.TypeOccurs name.text ∨ m.ValueOccurs name.text
  | .ctor decl => m.ValueOccurs decl.name.text

end Subject

namespace Rule

/-- The report is about something of the module whose name does not occur. -/
def Justified (m : Module) (report : Diagnostic) : Prop :=
  ∃ subject : Subject, subject.IsOf m ∧ Same report subject.report ∧ ¬ subject.Occurs m

variable {m : Module} {interfaces : Table String Interface}

/-- The form that most of the rules share: a report unless the name counts as used. -/
theorem justified_unless {subject : Subject} (isOf : subject.IsOf m) {used : Bool}
    (countsAsUsed : subject.Occurs m → used = true) {reported : Diagnostic}
    (isAbout : Same reported subject.report) :
    ∀ report ∈ (if used then [] else [reported]), Justified m report := by
  intro report isReport
  split at isReport
  next => exact absurd isReport List.not_mem_nil
  next unused =>
    obtain rfl := List.mem_singleton.mp isReport
    exact ⟨subject, isOf, isAbout, mt countsAsUsed unused⟩

/-! ### One rule after the other -/

theorem justified_unusedImport {reports : List Diagnostic}
    (succeeds : checkUnusedImport (.ofModule m interfaces) = .ok reports) :
    ∀ report ∈ reports, Justified m report := by
  intro report isReport
  obtain ⟨decl, isUnused, reported⟩ := exists_of_mem_mapM succeeds report isReport
  obtain ⟨isImport, unused⟩ := List.mem_filter.mp isUnused
  obtain ⟨lines, _, returned⟩ := bind_eq_ok reported
  cases returned
  refine ⟨.wholeImport decl, isImport, rfl, ?_⟩
  intro occurs
  have isUsed := (Usage.isQualifierUsed_iff_occurs m decl.name.text).mpr occurs
  simp [isUnusedImport, LintInput.ofModule, isUsed] at unused

theorem justified_unusedImportAlias :
    ∀ report ∈ checkUnusedImportAlias (.ofModule m interfaces), Justified m report := by
  intro report isReport
  obtain ⟨decl, isImport, isItsReport⟩ := List.mem_flatMap.mp isReport
  unfold unusedImportAliasOf at isItsReport
  split at isItsReport
  next rename renamed =>
    have isOf : (Subject.importAlias rename).IsOf m := ⟨decl, isImport, renamed⟩
    have countsAsUsed := (Usage.isQualifierUsed_iff_occurs m rename.text).mpr
    have isAbout : Same (unusedImportAliasReport decl rename) (Subject.importAlias rename).report :=
      rfl
    exact justified_unless isOf countsAsUsed isAbout report isItsReport
  next => exact absurd isItsReport List.not_mem_nil

theorem isImportedTypeUsed_of_occurs {text : String}
    (occurs : m.TypeOccurs text ∨ m.ValueOccurs text) (ctors : List String) :
    isImportedTypeUsed (.ofModule m) text ctors = true := by
  rw [← Usage.isTypeUsed_iff_occurs, ← Usage.isValueUsed_iff_occurs] at occurs
  rw [isImportedTypeUsed, Bool.or_eq_true, Bool.or_eq_true]
  exact .inl occurs

theorem justified_unusedItem {item : ExposedItem} (isOf : (Subject.exposedItem item).IsOf m)
    (moduleName : String) :
    ∀ report ∈ unusedItem (.ofModule m interfaces) moduleName item, Justified m report := by
  cases item with
  | value name =>
      exact justified_unless isOf (Usage.isValueUsed_iff_occurs m name.text).mpr rfl
  | operator symbol =>
      exact justified_unless isOf (Usage.isOperatorUsed_iff_occurs m symbol.text).mpr rfl
  | type name constructors span =>
      intro report isReport
      simp only [unusedItem] at isReport
      split at isReport
      next ctors _ =>
        have countsAsUsed (occurs : m.TypeOccurs name.text ∨ m.ValueOccurs name.text) :=
          isImportedTypeUsed_of_occurs occurs ctors
        exact justified_unless isOf countsAsUsed rfl report isReport
      next => exact absurd isReport List.not_mem_nil

theorem justified_unusedImportedValue :
    ∀ report ∈ checkUnusedImportedValue (.ofModule m interfaces), Justified m report := by
  intro report isReport
  obtain ⟨decl, isImport, isItsReport⟩ := List.mem_flatMap.mp isReport
  unfold unusedItemsOf at isItsReport
  split at isItsReport
  next exposing exposes =>
    obtain ⟨item, isItem, isItemReport⟩ := List.mem_flatMap.mp isItsReport
    exact justified_unusedItem ⟨decl, isImport, exposing, exposes, isItem⟩ _ report isItemReport
  next => exact absurd isItsReport List.not_mem_nil

theorem justified_unusedConstructor :
    ∀ report ∈ checkUnusedConstructor (.ofModule m interfaces), Justified m report := by
  intro report isReport
  unfold checkUnusedConstructor at isReport
  split at isReport
  next => exact absurd isReport List.not_mem_nil
  next =>
    obtain ⟨declaration, declared, isItsReport⟩ := List.mem_flatMap.mp isReport
    unfold unusedConstructorsOf at isItsReport
    split at isItsReport
    next owner =>
      split at isItsReport
      next => exact absurd isItsReport List.not_mem_nil
      next =>
        obtain ⟨decl, isUnused, rfl⟩ := List.mem_map.mp isItsReport
        obtain ⟨isCtor, unused⟩ := List.mem_filter.mp isUnused
        refine ⟨.ctor decl, ⟨owner, declared, isCtor⟩, rfl, ?_⟩
        intro occurs
        have isUsed := (Usage.isValueUsed_iff_occurs m decl.name.text).mpr occurs
        simp [LintInput.ofModule, isUsed] at unused
    next => exact absurd isItsReport List.not_mem_nil

/-! ### All of them -/

/-- The codes of the rules that judge by occurrence. -/
def occurrenceCodes : List String :=
  ["unused_import", "unused_alias", "unused_imported_value", "unused_value_constructor"]

theorem justified_check {rule : Rule} (judges : rule.code ∈ occurrenceCodes)
    {reports : List Diagnostic} (succeeds : rule.check (.ofModule m interfaces) = .ok reports) :
    ∀ report ∈ reports, Justified m report := by
  cases rule with
  | unusedImport => exact justified_unusedImport succeeds
  | unusedImportAlias => exact Except.ok.inj succeeds ▸ justified_unusedImportAlias
  | unusedImportedValue => exact Except.ok.inj succeeds ▸ justified_unusedImportedValue
  | unusedConstructor => exact Except.ok.inj succeeds ▸ justified_unusedConstructor
  | _ => exact absurd judges (by decide)

end Rule

/-- Each question of the usage analysis is answered by the occurrences in the tree, at any depth and
in dead code too. Hence every report of the rules for imports and constructors is about something
of the module whose name does not occur. -/
theorem Module.usage_facts_are_occurrences (m : Module) :
    (∀ text, let usage := Usage.ofModule m
      (usage.isQualifierUsed text = true ↔ m.QualifierOccurs text) ∧
      (usage.isValueUsed text = true ↔ m.ValueOccurs text) ∧
      (usage.isTypeUsed text = true ↔ m.TypeOccurs text) ∧
      (usage.isOperatorUsed text = true ↔ m.OperatorOccurs text)) ∧
    ∀ (rules : RuleSet) interfaces reports, rules.evaluate m interfaces = .ok reports →
      ∀ report ∈ reports, report.code ∈ Rule.occurrenceCodes →
        ∃ subject : Subject, subject.IsOf m ∧ Same report subject.report ∧ ¬ subject.Occurs m := by
  constructor
  · intro text usage
    exact ⟨Usage.isQualifierUsed_iff_occurs m text, Usage.isValueUsed_iff_occurs m text,
      Usage.isTypeUsed_iff_occurs m text, Usage.isOperatorUsed_iff_occurs m text⟩
  · intro rules interfaces reports succeeds report isReport judged
    obtain ⟨rule, ofRule, _, checked, isItsReport⟩ :=
      RuleSet.exists_check_of_mem_evaluate succeeds report isReport
    have itsCode := Rule.labels_check checked report isItsReport
    exact Rule.justified_check (itsCode ▸ judged) checked report isItsReport

end ElmDiagnostics
