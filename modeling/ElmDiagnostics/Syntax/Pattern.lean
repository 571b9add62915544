import ElmDiagnostics.Syntax.Name

/-!
Contract: patterns of parameters, case branches and destructurings.

Owns: the pattern tree, the span of a pattern, its form without outer parentheses, and the
names it binds in source order.
-/

set_option autoImplicit false

namespace ElmDiagnostics

/-- A pattern. -/
inductive Pattern where
  | wildcard (span : Span)
  | var (name : Name)
  | literal (token : Literal)
  | unit (span : Span)
  | paren (inner : Pattern) (span : Span)
  | tuple (items : List Pattern) (span : Span)
  | list (items : List Pattern) (span : Span)
  | cons (head tail : Pattern) (span : Span)
  | record (fields : List Name) (span : Span)
  | ctor (name : QualifiedName) (args : List Pattern) (span : Span)
  | named (inner : Pattern) (name : Name) (span : Span)
deriving Repr

namespace Pattern

/-- Where the pattern is written. -/
def span : Pattern → Span
  | .wildcard span | .unit span => span
  | .var name => name.span
  | .literal token => token.span
  | .paren _ span | .tuple _ span | .list _ span | .cons _ _ span | .record _ span
  | .ctor _ _ span | .named _ _ span => span

/-- The pattern without the parentheses around it. -/
def unparen : Pattern → Pattern
  | .paren inner _ => inner.unparen
  | pattern => pattern

mutual

/-- Every name the pattern binds, in source order. -/
def binders : Pattern → List Name
  | .wildcard _ | .literal _ | .unit _ => []
  | .var name => [name]
  | .paren inner _ => inner.binders
  | .tuple items _ | .list items _ => bindersOfList items
  | .cons head tail _ => head.binders ++ tail.binders
  | .record fields _ => fields
  | .ctor _ args _ => bindersOfList args
  | .named inner name _ => inner.binders ++ [name]

/-- The names bound by the patterns of a list, one pattern after the other. -/
def bindersOfList : List Pattern → List Name
  | [] => []
  | pattern :: rest => pattern.binders ++ bindersOfList rest

end

end Pattern

end ElmDiagnostics
