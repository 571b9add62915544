import ElmDiagnostics.Rule.Binder
import ElmDiagnostics.Rule.DeadCode
import ElmDiagnostics.Rule.Import
import ElmDiagnostics.Rule.Simplification

/-!
Contract: running the rules over a module.

Owns: what each rule checks, sets of disabled rules, and the evaluation of a module.

Rules are independent: the reports of a module are those of its enabled rules one rule after
the other.
-/

set_option autoImplicit false

namespace ElmDiagnostics

/-- The reports of one rule. -/
def Rule.check (rule : Rule) (input : LintInput) : Except CoordinateError (List Diagnostic) :=
  match rule with
  | .booleanCase => .ok (checkBooleanCase input)
  | .unusedTopLevel => .ok (checkUnusedTopLevel input)
  | .unusedImport => checkUnusedImport input
  | .unusedImportAlias => .ok (checkUnusedImportAlias input)
  | .unusedImportedValue => .ok (checkUnusedImportedValue input)
  | .unusedPatternVariable => .ok (checkUnusedPatternVariable input)
  | .unusedTypeAlias => .ok (checkUnusedTypeAlias input)
  | .unusedConstructor => .ok (checkUnusedConstructor input)
  | .consOntoListLiteral => .ok (checkConsOntoListLiteral input)
  | .concatOfListLiterals => .ok (checkConcatOfListLiterals input)
  | .concatOntoSingleton => .ok (checkConcatOntoSingleton input)
  | .singleFieldRecord => .ok (checkSingleFieldRecord input)
  | .flattenedListLiterals => .ok (checkFlattenedListLiterals input)
  | .portModuleWithoutPorts => .ok (checkPortModuleWithoutPorts input)
  | .operatorCall => .ok (checkOperatorCall input)

/-- The rules to run: all but the disabled ones. -/
structure RuleSet where
  disabled : List Rule
deriving DecidableEq, Repr

namespace RuleSet

/-- All rules. -/
def full : RuleSet := ⟨[]⟩

/-- All rules but those with the given codes; unknown codes are ignored. -/
def without (codes : List String) : RuleSet := ⟨codes.filterMap Rule.ofCode?⟩

/-- Whether a rule is run. -/
def isEnabled (rules : RuleSet) (rule : Rule) : Bool := decide (rule ∉ rules.disabled)

/-- The rules that are run, in the order in which they report. -/
def enabled (rules : RuleSet) : List Rule := Rule.all.filter rules.isEnabled

/-- The reports of the enabled rules on a module, given the interfaces of other modules. -/
def evaluate (rules : RuleSet) (tree : Module) (interfaces : Table String Interface) :
    Except CoordinateError (List Diagnostic) := do
  let input := LintInput.ofModule tree interfaces
  let reports ← rules.enabled.mapM fun rule => rule.check input
  return reports.flatten

end RuleSet

end ElmDiagnostics
