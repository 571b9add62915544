import ElmDiagnostics.Rule.Basic

/-!
Contract: the rule for pattern variables that nothing mentions.

Owns: the binding sites of a module and the report of a binder that the expression it is
bound in never mentions.

Parameters are judged by their body, a case pattern by its branch, and a destructuring by the
whole `let` that it stands in.
-/

set_option autoImplicit false

namespace ElmDiagnostics.Rule

/-- Reports the binders of `patterns` that are not among the `mentioned` names. -/
def unusedBinders (patterns : List Pattern) (mentioned : List String) : List Diagnostic :=
  ((Pattern.bindersOfList patterns).filter fun binder => binder.text ∉ mentioned).map fun binder =>
    unusedPatternVariable.report ("Unused pattern variable " ++ quoted binder.text) binder.span

/-- Reports the parameters that a function never mentions. -/
def unusedParams (decl : ValueDecl) : List Diagnostic :=
  unusedBinders decl.params decl.body.localValues

/-- Reports what the expression itself binds and never mentions. -/
def unusedBindersOf (expr : Expr) : List Diagnostic :=
  match expr with
  | .lambda params body _ => unusedBinders params body.localValues
  | .caseOf _ branches _ =>
      branches.flatMap fun branch => unusedBinders [branch.pattern] branch.body.localValues
  | .letIn declarations _ _ =>
      declarations.flatMap fun
        | .value decl => unusedParams decl
        | .destructure pattern _ _ => unusedBinders [pattern] expr.localValues
  | _ => []

/-- Pattern variables that nothing mentions: first those of top-level functions, then those of
the expressions, in source order. -/
def checkUnusedPatternVariable (input : LintInput) : List Diagnostic :=
  input.tree.valueDecls.flatMap unusedParams ++ input.tree.exprs.flatMap unusedBindersOf

end ElmDiagnostics.Rule
