import ElmDiagnostics.Syntax.Module

/-!
Contract: the names that a piece of a module refers to.

Owns: `Reference` and, for patterns, types, expressions and declarations, the list of
references made in them, in source order.

Does not own: what a reference resolves to.
-/

set_option autoImplicit false

namespace ElmDiagnostics

/-- A name as it is written where it is used. Values include the targets of record updates;
constructors come from expressions and patterns. -/
inductive Reference where
  | value (qualifier : Option String) (name : String)
  | ctor (qualifier : Option String) (name : String)
  | type (qualifier : Option String) (name : String)
  | operator (symbol : String)
deriving DecidableEq, Repr

namespace Reference

/-- The qualifier in front of the name. -/
def qualifier? : Reference → Option String
  | .value qualifier _ | .ctor qualifier _ | .type qualifier _ => qualifier
  | .operator _ => none

/-- The name of an unqualified value reference, the only kind a local binder can satisfy. -/
def localValue? : Reference → Option String
  | .value none name => some name
  | _ => none

end Reference

namespace Pattern

mutual

/-- The constructors a pattern names. -/
def references : Pattern → List Reference
  | .wildcard _ | .var _ | .literal _ | .unit _ | .record _ _ => []
  | .paren inner _ | .named inner _ _ => inner.references
  | .tuple items _ | .list items _ => referencesOfList items
  | .cons head tail _ => head.references ++ tail.references
  | .ctor name args _ => .ctor name.qualifierText name.base.text :: referencesOfList args

/-- The constructors the patterns of a list name. -/
def referencesOfList : List Pattern → List Reference
  | [] => []
  | pattern :: rest => pattern.references ++ referencesOfList rest

end

end Pattern

namespace TypeExpr

mutual

/-- The types a type expression names. -/
def references : TypeExpr → List Reference
  | .var _ | .unit _ => []
  | .ref name args _ => .type name.qualifierText name.base.text :: referencesOfList args
  | .function domain codomain _ => domain.references ++ codomain.references
  | .tuple items _ => referencesOfList items
  | .record _ fields _ => referencesOfFields fields

/-- The types the type expressions of a list name. -/
def referencesOfList : List TypeExpr → List Reference
  | [] => []
  | type :: rest => type.references ++ referencesOfList rest

/-- The types the fields of a record type name. -/
def referencesOfFields : List TypeField → List Reference
  | [] => []
  | ⟨_, type, _⟩ :: rest => type.references ++ referencesOfFields rest

end

end TypeExpr

/-- The types a signature names; none when there is no signature. -/
def Signature.references? : Option Signature → List Reference
  | some signature => signature.type.references
  | none => []

namespace Expr

mutual

/-- Everything an expression refers to. -/
def references : Expr → List Reference
  | .var name => [.value name.qualifierText name.base.text]
  | .ctor name => [.ctor name.qualifierText name.base.text]
  | .operator symbol => [.operator symbol.text]
  | .accessor _ | .literal _ | .unit _ => []
  | .negate inner _ | .paren inner _ => inner.references
  | .tuple items _ | .list items _ => referencesOfList items
  | .record fields _ => referencesOfFields fields
  | .update target fields _ => .value none target.text :: referencesOfFields fields
  | .access base _ _ => base.references
  | .call function args _ => function.references ++ referencesOfList args
  | .binary symbol left right _ => .operator symbol.text :: (left.references ++ right.references)
  | .lambda params body _ => Pattern.referencesOfList params ++ body.references
  | .ifThenElse condition thenBranch elseBranch _ =>
      condition.references ++ (thenBranch.references ++ elseBranch.references)
  | .caseOf scrutinee branches _ => scrutinee.references ++ referencesOfBranches branches
  | .letIn declarations body _ => referencesOfLetDecls declarations ++ body.references

/-- Everything the expressions of a list refer to. -/
def referencesOfList : List Expr → List Reference
  | [] => []
  | expr :: rest => expr.references ++ referencesOfList rest

/-- Everything the values of record fields refer to. -/
def referencesOfFields : List ExprField → List Reference
  | [] => []
  | ⟨_, value, _⟩ :: rest => value.references ++ referencesOfFields rest

/-- Everything case branches refer to, pattern before body. -/
def referencesOfBranches : List CaseBranch → List Reference
  | [] => []
  | ⟨pattern, body, _⟩ :: rest =>
      pattern.references ++ (body.references ++ referencesOfBranches rest)

/-- Everything `let` declarations refer to. -/
def referencesOfLetDecls : List LetDecl → List Reference
  | [] => []
  | .value ⟨signature, _, params, body, _⟩ :: rest =>
      (Signature.references? signature ++ (Pattern.referencesOfList params ++ body.references)) ++
        referencesOfLetDecls rest
  | .destructure pattern body _ :: rest =>
      (pattern.references ++ body.references) ++ referencesOfLetDecls rest

end

/-- The unqualified value names an expression mentions. -/
def localValues (expr : Expr) : List String := expr.references.filterMap Reference.localValue?

end Expr

/-- Everything a value declaration refers to: signature, parameters, body. -/
def ValueDecl.references (decl : ValueDecl) : List Reference :=
  Signature.references? decl.signature ++
    (Pattern.referencesOfList decl.params ++ decl.body.references)

/-- The types the arguments of a constructor name. -/
def CtorDecl.references (decl : CtorDecl) : List Reference := TypeExpr.referencesOfList decl.args

/-- Everything a top-level declaration refers to. -/
def Declaration.references : Declaration → List Reference
  | .value decl => decl.references
  | .typeAlias decl => decl.type.references
  | .customType decl => decl.ctors.flatMap CtorDecl.references
  | .port decl => decl.type.references
  | .operator decl => [.value none decl.function.text]

/-- Everything the declarations of a module refer to, dead code included. -/
def Module.references (m : Module) : List Reference := m.declarations.flatMap Declaration.references

end ElmDiagnostics
