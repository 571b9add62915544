import ElmDiagnostics.Diagnostic.Basic
import ElmDiagnostics.Usage.ModuleUsage
import ElmDiagnostics.Workspace.Interface

/-!
Contract: the rules of the linter and what every report of a rule has in common.

Owns: the list of rules, their public codes, and the form of a report.

Does not own: what a rule looks for.
-/

set_option autoImplicit false

namespace ElmDiagnostics

/-- The rules of the linter. -/
inductive Rule where
  | booleanCase
  | unusedTopLevel
  | unusedImport
  | unusedImportAlias
  | unusedImportedValue
  | unusedPatternVariable
  | unusedTypeAlias
  | unusedConstructor
  | consOntoListLiteral
  | concatOfListLiterals
  | concatOntoSingleton
  | singleFieldRecord
  | flattenedListLiterals
  | portModuleWithoutPorts
  | operatorCall
deriving DecidableEq, Repr

namespace Rule

/-- All rules, in the order in which they report. -/
def all : List Rule :=
  [.booleanCase, .unusedTopLevel, .unusedImport, .unusedImportAlias, .unusedImportedValue,
    .unusedPatternVariable, .unusedTypeAlias, .unusedConstructor, .consOntoListLiteral,
    .concatOfListLiterals, .concatOntoSingleton, .singleFieldRecord, .flattenedListLiterals,
    .portModuleWithoutPorts, .operatorCall]

/-- The stable public code of a rule. -/
def code : Rule → String
  | .booleanCase => "boolean_case_expr"
  | .unusedTopLevel => "unused_top_level"
  | .unusedImport => "unused_import"
  | .unusedImportAlias => "unused_alias"
  | .unusedImportedValue => "unused_imported_value"
  | .unusedPatternVariable => "unused_pattern"
  | .unusedTypeAlias => "unused_type_alias"
  | .unusedConstructor => "unused_value_constructor"
  | .consOntoListLiteral => "drop_cons_of_item_and_list"
  | .concatOfListLiterals => "drop_concat_of_lists"
  | .concatOntoSingleton => "use_cons_over_concat"
  | .singleFieldRecord => "single_field_record"
  | .flattenedListLiterals => "unnecessary_list_concat"
  | .portModuleWithoutPorts => "unnecessary_port_module"
  | .operatorCall => "no_uncurried_prefix"

/-- The rule of a code. -/
def ofCode? (code : String) : Option Rule := all.find? fun rule => rule.code = code

/-- Whether the rule looks for something unused. -/
def findsUnused : Rule → Bool
  | .unusedTopLevel | .unusedImport | .unusedImportAlias | .unusedImportedValue
  | .unusedPatternVariable | .unusedTypeAlias | .unusedConstructor => true
  | _ => false

/-- A report: always a warning, tagged so that editors fade what is unused. -/
def report (rule : Rule) (message : String) (range : Span) : Diagnostic :=
  let diagnostic := Diagnostic.new rule.code message .warning range
  if rule.findsUnused then diagnostic.withTag .unnecessary else diagnostic

end Rule

/-- What a rule may look at: a module, how it uses its names, and the interfaces of the
modules it may import. -/
structure LintInput where
  tree : Module
  usage : Usage
  interfaces : Table String Interface

/-- Prepares a module for the rules. -/
def LintInput.ofModule (tree : Module) (interfaces : Table String Interface) : LintInput where
  tree := tree
  usage := Usage.ofModule tree
  interfaces := interfaces

/-- A name in the form that messages quote it. -/
def quoted (text : String) : String := s!"`{text}`"

end ElmDiagnostics
