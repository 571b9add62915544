import ElmDiagnostics.Rule.ListLiteral

/-!
Contract: rules for constructs that have a simpler form.

Owns: case expressions on a boolean, calls of an operator in parentheses, record types of a
single field, and port modules without ports.
-/

set_option autoImplicit false

namespace ElmDiagnostics.Rule

/-! ### Boolean case expressions -/

/-- The truth value a pattern stands for, parentheses aside: `True` and `False` without
arguments, unqualified or qualified with `Basics`. -/
def boolPattern? (pattern : Pattern) : Option Bool :=
  match pattern.unparen with
  | .ctor name [] _ =>
      if name.qualifierText = none ∨ name.qualifierText = some "Basics" then
        if name.base.text = "True" then some true
        else if name.base.text = "False" then some false
        else none
      else none
  | _ => none

/-- Whether the pattern is a wildcard, parentheses aside. -/
def isWildcard (pattern : Pattern) : Bool :=
  match pattern.unparen with
  | .wildcard _ => true
  | _ => false

/-- One pattern is a truth value and the other takes the rest. -/
def isBooleanSplit (first second : Pattern) : Bool :=
  match boolPattern? first with
  | some value => isWildcard second || boolPattern? second = some (!value)
  | none => false

/-- A case expression whose two branches tell the truth values apart. -/
def isBooleanCase : Expr → Bool
  | .caseOf _ [first, second] _ =>
      isBooleanSplit first.pattern second.pattern || isBooleanSplit second.pattern first.pattern
  | _ => false

/-- Case expressions on a boolean. -/
def checkBooleanCase : LintInput → List Diagnostic :=
  reportExprs .booleanCase "Use an if expression instead of a boolean case expression."
    isBooleanCase

/-! ### Operator calls -/

/-- Reports an operator that is called with both its operands. A single argument is a partial
application and fine. -/
def operatorCallOf : Expr → List Diagnostic
  | .call function [_, _] span =>
      match function.unparen with
      | .operator symbol =>
          [operatorCall.report
            ("Use an infix operator instead of a prefix operator: " ++ quoted symbol.text) span]
      | _ => []
  | _ => []

/-- Operators that are called with both their operands. -/
def checkOperatorCall (input : LintInput) : List Diagnostic :=
  input.tree.exprs.flatMap operatorCallOf

/-! ### Record types -/

/-- The types in the signatures of the values of a `let`. -/
def letSignatures : Expr → List TypeExpr
  | .letIn declarations _ _ =>
      declarations.filterMap fun
        | .value decl => decl.signature.map (·.type)
        | .destructure _ _ _ => none
  | _ => []

/-- The outermost types written in a declaration, those of inner signatures included. -/
def typeRootsOf : Declaration → List TypeExpr
  | .value decl =>
      (decl.signature.map (·.type)).toList ++ decl.body.subexprs.flatMap letSignatures
  | .typeAlias decl => [decl.type]
  | .customType decl => decl.ctors.flatMap (·.args)
  | .port decl => [decl.type]
  | .operator _ => []

/-- Record types of a single field, wherever a type is written. -/
def checkSingleFieldRecord (input : LintInput) : List Diagnostic :=
  let types := (input.tree.declarations.flatMap typeRootsOf).flatMap TypeExpr.subtypes
  (types.filter TypeExpr.isSingleFieldRecord).map fun type =>
    singleFieldRecord.report
      "Using a record is obsolete if you only plan to store a single field in it." type.span

/-! ### Port modules -/

/-- A port module that declares no port. -/
def checkPortModuleWithoutPorts (input : LintInput) : List Diagnostic :=
  match input.tree.header with
  | some header =>
      if header.kind = .port ∧ input.tree.portDecls = [] then
        [portModuleWithoutPorts.report
          "Module is defined as a `port` module, but does not define any ports." header.span]
      else []
  | none => []

end ElmDiagnostics.Rule
