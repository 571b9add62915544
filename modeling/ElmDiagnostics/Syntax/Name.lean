import ElmDiagnostics.Source.Position

/-!
Contract: the tokens of a syntax tree that carry text.

Owns: names, qualified names and literals, each with the span it was read from.
-/

set_option autoImplicit false

namespace ElmDiagnostics

/-- A name together with where it is written. -/
structure Name where
  text : String
  span : Span
deriving DecidableEq, Repr

/-- A name that a module name or an import alias may stand in front of. -/
structure QualifiedName where
  qualifier : Option Name
  base : Name
  span : Span
deriving DecidableEq, Repr

/-- The text in front of the last dot, if there is one. -/
def QualifiedName.qualifierText (name : QualifiedName) : Option String :=
  name.qualifier.map (·.text)

/-- The four kinds of literal token. -/
inductive LiteralKind where
  | int
  | float
  | char
  | string
deriving DecidableEq, Repr

/-- A literal, as it is written. -/
structure Literal where
  kind : LiteralKind
  text : String
  span : Span
deriving DecidableEq, Repr

end ElmDiagnostics
