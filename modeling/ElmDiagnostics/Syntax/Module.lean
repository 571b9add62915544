import ElmDiagnostics.Syntax.Expr

/-!
Contract: whole modules: header, imports and top-level declarations.

Owns: exposing lists, imports, declarations, modules, and what a module without a header
stands for: a plain module named `Main` that exposes everything.
-/

set_option autoImplicit false

namespace ElmDiagnostics

/-! ### Exposing lists -/

/-- An entry of an explicit exposing list. A type is open when `(..)` follows its name. -/
inductive ExposedItem where
  | value (name : Name)
  | operator (symbol : Name)
  | type (name : Name) (constructors : Option Span) (span : Span)
deriving DecidableEq, Repr

namespace ExposedItem

/-- The name the item exposes. -/
def name : ExposedItem → Name
  | .value name => name
  | .operator symbol => symbol
  | .type name _ _ => name

/-- Where the item is written. -/
def span : ExposedItem → Span
  | .value name => name.span
  | .operator symbol => symbol.span
  | .type _ _ span => span

end ExposedItem

/-- What a module or an import exposes: everything, or the listed items. -/
inductive Exposing where
  | all (span : Span)
  | explicit (items : List ExposedItem) (span : Span)
deriving DecidableEq, Repr

namespace Exposing

/-- Whether everything is exposed. -/
def isAll : Exposing → Bool
  | .all _ => true
  | .explicit _ _ => false

/-- The listed items; none when everything is exposed. -/
def items : Exposing → List ExposedItem
  | .all _ => []
  | .explicit items _ => items

/-- Where the clause is written. -/
def span : Exposing → Span
  | .all span => span
  | .explicit _ span => span

end Exposing

/-- An import; `rename` is the name after `as`. -/
structure Import where
  name : Name
  rename : Option Name
  exposing : Option Exposing
  span : Span
deriving DecidableEq, Repr

/-! ### Declarations -/

/-- A type alias. -/
structure TypeAliasDecl where
  name : Name
  params : List Name
  type : TypeExpr
  span : Span

/-- An alias of a closed record is also a constructor function. -/
def TypeAliasDecl.isRecordConstructor (decl : TypeAliasDecl) : Bool := decl.type.isClosedRecord

/-- A constructor of a custom type. -/
structure CtorDecl where
  name : Name
  args : List TypeExpr
  span : Span

/-- A custom type. -/
structure CustomTypeDecl where
  name : Name
  params : List Name
  ctors : List CtorDecl
  span : Span

/-- A port and its signature. -/
structure PortDecl where
  name : Name
  type : TypeExpr
  span : Span

/-- The declaration that an operator stands for a function. -/
structure OperatorDecl where
  symbol : Name
  function : Name
  span : Span
deriving DecidableEq, Repr

/-- A top-level declaration. -/
inductive Declaration where
  | value (decl : ValueDecl)
  | typeAlias (decl : TypeAliasDecl)
  | customType (decl : CustomTypeDecl)
  | port (decl : PortDecl)
  | operator (decl : OperatorDecl)

namespace Declaration

/-- The declared name; for an operator its symbol. -/
def name : Declaration → Name
  | .value decl => decl.name
  | .typeAlias decl => decl.name
  | .customType decl => decl.name
  | .port decl => decl.name
  | .operator decl => decl.symbol

/-- Where the declaration is written. -/
def span : Declaration → Span
  | .value decl => decl.span
  | .typeAlias decl => decl.span
  | .customType decl => decl.span
  | .port decl => decl.span
  | .operator decl => decl.span

end Declaration

/-! ### Modules -/

/-- Plain modules, modules that may declare ports, and effect managers. -/
inductive ModuleKind where
  | plain
  | port
  | effect
deriving DecidableEq, Repr

/-- The header line of a module. -/
structure ModuleHeader where
  kind : ModuleKind
  name : Name
  exposing : Exposing
  span : Span
deriving DecidableEq, Repr

/-- The syntax tree of one file. -/
structure Module where
  header : Option ModuleHeader
  imports : List Import
  declarations : List Declaration
  span : Span

namespace Module

/-- The module's name. -/
def name (m : Module) : String :=
  match m.header with
  | some header => header.name.text
  | none => "Main"

/-- The module's kind. -/
def kind (m : Module) : ModuleKind :=
  match m.header with
  | some header => header.kind
  | none => .plain

/-- Whether every declaration is visible outside. -/
def exposesAll (m : Module) : Bool :=
  match m.header with
  | some header => header.exposing.isAll
  | none => true

/-- The items that the header lists. -/
def exposedItems (m : Module) : List ExposedItem :=
  match m.header with
  | some header => header.exposing.items
  | none => []

/-- The top-level values and functions. -/
def valueDecls (m : Module) : List ValueDecl :=
  m.declarations.filterMap fun
    | .value decl => some decl
    | _ => none

/-- The declared ports. -/
def portDecls (m : Module) : List PortDecl :=
  m.declarations.filterMap fun
    | .port decl => some decl
    | _ => none

/-- Every expression of the module in source order, parents before children. -/
def exprs (m : Module) : List Expr := m.valueDecls.flatMap fun decl => decl.body.subexprs

end Module

end ElmDiagnostics
