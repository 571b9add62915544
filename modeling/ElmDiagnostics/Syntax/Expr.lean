import ElmDiagnostics.Syntax.Pattern
import ElmDiagnostics.Syntax.TypeExpr

/-!
Contract: expressions and the declarations inside `let`.

Owns: the expression tree, the span of an expression, its form without outer parentheses,
and the list of all expressions inside it, parents before children.

Does not own: the names an expression refers to.
-/

set_option autoImplicit false

namespace ElmDiagnostics

/-- The type signature written above a value. -/
structure Signature where
  name : Name
  type : TypeExpr
  span : Span

mutual

/-- An expression. -/
inductive Expr where
  | var (name : QualifiedName)
  | ctor (name : QualifiedName)
  | operator (symbol : Name)
  | accessor (field : Name)
  | literal (token : Literal)
  | negate (inner : Expr) (span : Span)
  | paren (inner : Expr) (span : Span)
  | unit (span : Span)
  | tuple (items : List Expr) (span : Span)
  | list (items : List Expr) (span : Span)
  | record (fields : List ExprField) (span : Span)
  | update (target : Name) (fields : List ExprField) (span : Span)
  | access (base : Expr) (field : Name) (span : Span)
  | call (function : Expr) (args : List Expr) (span : Span)
  | binary (symbol : Name) (left right : Expr) (span : Span)
  | lambda (params : List Pattern) (body : Expr) (span : Span)
  | ifThenElse (condition thenBranch elseBranch : Expr) (span : Span)
  | caseOf (scrutinee : Expr) (branches : List CaseBranch) (span : Span)
  | letIn (declarations : List LetDecl) (body : Expr) (span : Span)

/-- A field of a record expression or of a record update. -/
structure ExprField where
  name : Name
  value : Expr
  span : Span

/-- One branch of a case expression. -/
structure CaseBranch where
  pattern : Pattern
  body : Expr
  span : Span

/-- A value or function, at the top level or inside `let`. -/
structure ValueDecl where
  signature : Option Signature
  name : Name
  params : List Pattern
  body : Expr
  span : Span

/-- A declaration inside `let`. -/
inductive LetDecl where
  | value (decl : ValueDecl)
  | destructure (pattern : Pattern) (body : Expr) (span : Span)

end

namespace Expr

/-- Where the expression is written. -/
def span : Expr → Span
  | .var name | .ctor name => name.span
  | .operator name | .accessor name => name.span
  | .literal token => token.span
  | .unit span => span
  | .negate _ span | .paren _ span | .tuple _ span | .list _ span | .record _ span
  | .update _ _ span | .access _ _ span | .call _ _ span | .binary _ _ _ span
  | .lambda _ _ span | .ifThenElse _ _ _ span | .caseOf _ _ span | .letIn _ _ span => span

/-- The expression without the parentheses around it. -/
def unparen : Expr → Expr
  | .paren inner _ => inner.unparen
  | expr => expr

/-- Whether the expression, parentheses aside, is a list literal. -/
def isListLiteral (expr : Expr) : Bool :=
  match expr.unparen with
  | .list _ _ => true
  | _ => false

mutual

/-- The expression and every expression inside it, in source order, parents before children. -/
def subexprs : Expr → List Expr
  | .var name => [.var name]
  | .ctor name => [.ctor name]
  | .operator symbol => [.operator symbol]
  | .accessor field => [.accessor field]
  | .literal token => [.literal token]
  | .unit span => [.unit span]
  | .negate inner span => .negate inner span :: inner.subexprs
  | .paren inner span => .paren inner span :: inner.subexprs
  | .tuple items span => .tuple items span :: subexprsOfList items
  | .list items span => .list items span :: subexprsOfList items
  | .record fields span => .record fields span :: subexprsOfFields fields
  | .update target fields span => .update target fields span :: subexprsOfFields fields
  | .access base field span => .access base field span :: base.subexprs
  | .call function args span =>
      .call function args span :: (function.subexprs ++ subexprsOfList args)
  | .binary symbol left right span =>
      .binary symbol left right span :: (left.subexprs ++ right.subexprs)
  | .lambda params body span => .lambda params body span :: body.subexprs
  | .ifThenElse condition thenBranch elseBranch span =>
      .ifThenElse condition thenBranch elseBranch span ::
        (condition.subexprs ++ (thenBranch.subexprs ++ elseBranch.subexprs))
  | .caseOf scrutinee branches span =>
      .caseOf scrutinee branches span :: (scrutinee.subexprs ++ subexprsOfBranches branches)
  | .letIn declarations body span =>
      .letIn declarations body span :: (subexprsOfLetDecls declarations ++ body.subexprs)

/-- The expressions of a list and every expression inside them. -/
def subexprsOfList : List Expr → List Expr
  | [] => []
  | expr :: rest => expr.subexprs ++ subexprsOfList rest

/-- The values of record fields and every expression inside them. -/
def subexprsOfFields : List ExprField → List Expr
  | [] => []
  | ⟨_, value, _⟩ :: rest => value.subexprs ++ subexprsOfFields rest

/-- The bodies of case branches and every expression inside them. -/
def subexprsOfBranches : List CaseBranch → List Expr
  | [] => []
  | ⟨_, body, _⟩ :: rest => body.subexprs ++ subexprsOfBranches rest

/-- The right-hand sides of `let` declarations and every expression inside them. -/
def subexprsOfLetDecls : List LetDecl → List Expr
  | [] => []
  | .value ⟨_, _, _, body, _⟩ :: rest => body.subexprs ++ subexprsOfLetDecls rest
  | .destructure _ body _ :: rest => body.subexprs ++ subexprsOfLetDecls rest

end

end Expr

end ElmDiagnostics
