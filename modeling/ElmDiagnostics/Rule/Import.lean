import ElmDiagnostics.QuickFix
import ElmDiagnostics.Rule.Basic

/-!
Contract: rules for imports that nothing uses.

Owns: unused imports, unused import aliases, unused exposed names, and the quick fixes of the
first two.

Deleting an import deletes its whole lines, so the line after it must exist as a coordinate:
this is the only place where a rule can fail.
-/

set_option autoImplicit false

namespace ElmDiagnostics.Rule

/-! ### Imports -/

/-- Whether nothing of an import is used: it has neither alias nor exposing clause, and its
name qualifies no reference. -/
def isUnusedImport (usage : Usage) (decl : Import) : Bool :=
  decl.rename.isNone && decl.exposing.isNone && !usage.isQualifierUsed decl.name.text

/-- The lines of a span, up to the start of the line after it. -/
def wholeLines (span : Span) : Except CoordinateError Span := do
  let lineAfter ← nextCoordinate span.stop.line
  return ⟨⟨span.start.line, 0⟩, ⟨lineAfter, 0⟩⟩

/-- The report of an unused import. -/
def unusedImportReport (decl : Import) : Except CoordinateError Diagnostic := do
  let lines ← wholeLines decl.span
  let fix := QuickFix.preferred ("Remove unused import " ++ quoted decl.name.text) [.delete lines]
  return (unusedImport.report ("Unused import " ++ quoted decl.name.text) decl.span).withData
    fix.toPayload

/-- Imports that nothing uses. -/
def checkUnusedImport (input : LintInput) : Except CoordinateError (List Diagnostic) :=
  (input.tree.imports.filter (isUnusedImport input.usage)).mapM unusedImportReport

/-! ### Aliases -/

/-- The report of an unused alias; its fix drops the `as` clause and keeps the import. -/
def unusedImportAliasReport (decl : Import) (rename : Name) : Diagnostic :=
  let clause : Span := ⟨decl.name.span.stop, rename.span.stop⟩
  let fix := QuickFix.preferred ("Remove unused alias " ++ quoted rename.text) [.delete clause]
  (unusedImportAlias.report ("Unused import alias " ++ quoted rename.text) rename.span).withData
    fix.toPayload

/-- Reports the alias of an import when it qualifies no reference. -/
def unusedImportAliasOf (usage : Usage) (decl : Import) : List Diagnostic :=
  match decl.rename with
  | some rename =>
      if usage.isQualifierUsed rename.text then [] else [unusedImportAliasReport decl rename]
  | none => []

/-- Import aliases that nothing uses. -/
def checkUnusedImportAlias (input : LintInput) : List Diagnostic :=
  input.tree.imports.flatMap (unusedImportAliasOf input.usage)

/-! ### Exposed names -/

/-- Whether a type or one of the constructors that come with it occurs. A record alias occurs
as a constructor too. -/
def isImportedTypeUsed (usage : Usage) (typeName : String) (ctors : List String) : Bool :=
  usage.isTypeUsed typeName || usage.isValueUsed typeName || ctors.any usage.isValueUsed

/-- Reports an item of an import's exposing clause that does not occur. An open type of a
module without a known interface is left alone: its constructors are unknown. -/
def unusedItem (input : LintInput) (moduleName : String) : ExposedItem → List Diagnostic
  | .value name =>
      if input.usage.isValueUsed name.text then []
      else [unusedImportedValue.report ("Unused imported value " ++ quoted name.text) name.span]
  | .operator symbol =>
      if input.usage.isOperatorUsed symbol.text then []
      else
        [unusedImportedValue.report ("Unused imported value " ++ quoted ("(" ++ symbol.text ++ ")"))
          symbol.span]
  | .type name constructors _ =>
      let ctors? : Option (List String) :=
        if constructors.isSome then
          (input.interfaces.get? moduleName).map fun interface =>
            (interface.constructorsOf? name.text).getD []
        else some []
      match ctors? with
      | some ctors =>
          if isImportedTypeUsed input.usage name.text ctors then []
          else [unusedImportedValue.report ("Unused imported type " ++ quoted name.text) name.span]
      | none => []

/-- Reports the items of an import that do not occur. -/
def unusedItemsOf (input : LintInput) (decl : Import) : List Diagnostic :=
  match decl.exposing with
  | some exposing => exposing.items.flatMap (unusedItem input decl.name.text)
  | none => []

/-- Exposed names of imports that do not occur. -/
def checkUnusedImportedValue (input : LintInput) : List Diagnostic :=
  input.tree.imports.flatMap (unusedItemsOf input)

end ElmDiagnostics.Rule
