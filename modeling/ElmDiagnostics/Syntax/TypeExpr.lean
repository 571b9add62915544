import ElmDiagnostics.Syntax.Name

/-!
Contract: type expressions of signatures, aliases, constructors and ports.

Owns: the type tree, the span of a type, and its record nodes.
-/

set_option autoImplicit false

namespace ElmDiagnostics

mutual

/-- A type as it is written. -/
inductive TypeExpr where
  | var (name : Name)
  | unit (span : Span)
  | ref (name : QualifiedName) (args : List TypeExpr) (span : Span)
  | function (domain codomain : TypeExpr) (span : Span)
  | tuple (items : List TypeExpr) (span : Span)
  | record (base : Option Name) (fields : List TypeField) (span : Span)

/-- A field of a record type. -/
structure TypeField where
  name : Name
  type : TypeExpr
  span : Span

end

namespace TypeExpr

/-- Where the type is written. -/
def span : TypeExpr → Span
  | .var name => name.span
  | .unit span => span
  | .ref _ _ span | .function _ _ span | .tuple _ span | .record _ _ span => span

/-- Whether the type is a record without a base that it extends. -/
def isClosedRecord : TypeExpr → Bool
  | .record none _ _ => true
  | _ => false

/-- Whether the type is a record of a single field, without a base that it extends. -/
def isSingleFieldRecord : TypeExpr → Bool
  | .record none [_] _ => true
  | _ => false

mutual

/-- The type and every type inside it, outer types before their parts. -/
def subtypes : TypeExpr → List TypeExpr
  | .var name => [.var name]
  | .unit span => [.unit span]
  | .ref name args span => .ref name args span :: subtypesOfList args
  | .function domain codomain span =>
      .function domain codomain span :: (domain.subtypes ++ codomain.subtypes)
  | .tuple items span => .tuple items span :: subtypesOfList items
  | .record base fields span => .record base fields span :: subtypesOfFields fields

/-- The types of a list and every type inside them. -/
def subtypesOfList : List TypeExpr → List TypeExpr
  | [] => []
  | type :: rest => type.subtypes ++ subtypesOfList rest

/-- The types of record fields and every type inside them. -/
def subtypesOfFields : List TypeField → List TypeExpr
  | [] => []
  | ⟨_, type, _⟩ :: rest => type.subtypes ++ subtypesOfFields rest

end

end TypeExpr

end ElmDiagnostics
