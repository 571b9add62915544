import ElmDiagnostics.Usage.Reachability
import ElmDiagnostics.Usage.Scope

/-!
Contract: which declarations of a module are alive and which names it mentions.

Owns: the reference graph of a module, its roots, and `Usage`, the result of the analysis.

An edge leads from a declaration to every declaration named in its definition, and from a
constructor to its type. Alive is what can be reached from the exposed names, the functions
of operators and, in a port module, the ports; a declaration that only mentions itself is not.
-/

set_option autoImplicit false

namespace ElmDiagnostics

/-! ### The reference graph -/

/-- Edges from `source` to each other declaration in `targets`. -/
def edgesFrom (source : DeclId) (targets : List DeclId) : List (DeclId × DeclId) :=
  (targets.filter fun target => target ≠ source).map fun target => (source, target)

/-- The edges that leave a constructor. -/
def CtorDecl.edges (scope : Scope) (owner : DeclId) (decl : CtorDecl) : List (DeclId × DeclId) :=
  edgesFrom (.ctor decl.name.text) (owner :: decl.references.filterMap scope.resolve)

/-- The edges that a declaration adds to the reference graph. -/
def Declaration.edges (scope : Scope) (declaration : Declaration) : List (DeclId × DeclId) :=
  let targets := declaration.references.filterMap scope.resolve
  match declaration with
  | .value decl => edgesFrom (.value decl.name.text) targets
  | .port decl => edgesFrom (.port decl.name.text) targets
  | .typeAlias decl => edgesFrom (.typeAlias decl.name.text) targets
  | .customType decl =>
      let owner := DeclId.customType decl.name.text
      edgesFrom owner targets ++ decl.ctors.flatMap (CtorDecl.edges scope owner)
  | .operator _ => []

/-- The reference graph of a module. -/
def Module.edges (m : Module) : List (DeclId × DeclId) :=
  m.declarations.flatMap (Declaration.edges (Scope.ofModule m))

/-! ### Roots -/

/-- What an exposed item keeps alive. -/
def ExposedItem.roots (scope : Scope) : ExposedItem → List DeclId
  | .value name => (scope.value? name.text).toList
  | .operator symbol => (scope.operator? symbol.text).toList
  | .type name constructors _ =>
      (scope.type? name.text).toList ++
        if constructors.isSome then scope.ctorsOf name.text else []

/-- What the exposing clause keeps alive. -/
def Module.exposedRoots (m : Module) (scope : Scope) : List DeclId :=
  if m.exposesAll then
    latestValues scope.values ++ (latestValues scope.types ++ latestValues scope.ctors)
  else m.exposedItems.flatMap (ExposedItem.roots scope)

/-- The functions of the module's own operators. -/
def Scope.operatorRoots (scope : Scope) : List DeclId :=
  (latestValues scope.operators).filterMap scope.value?

/-- A port and the types of its signature. -/
def PortDecl.roots (scope : Scope) (decl : PortDecl) : List DeclId :=
  .port decl.name.text :: decl.type.references.filterMap scope.resolve

/-- Everything that is alive by itself. -/
def Module.roots (m : Module) : List DeclId :=
  let scope := Scope.ofModule m
  m.exposedRoots scope ++ (scope.operatorRoots ++
    if m.kind = .port then m.portDecls.flatMap (PortDecl.roots scope) else [])

/-! ### The analysis -/

/-- What is known about the declarations and names of one module. -/
structure Usage where
  /-- The declarations that are alive. -/
  alive : List DeclId
  /-- Every reference of the module, dead code included. -/
  references : List Reference
deriving Repr

namespace Usage

/-- Analyses a module. -/
def ofModule (m : Module) : Usage where
  alive := reachable m.edges m.roots
  references := m.references

/-- Whether the declaration can be reached from a root. -/
def isReachable (usage : Usage) (id : DeclId) : Bool := decide (id ∈ usage.alive)

/-- Whether some reference is written with this qualifier, a module name or an import alias. -/
def isQualifierUsed (usage : Usage) (qualifier : String) : Bool :=
  usage.references.any fun reference => reference.qualifier? = some qualifier

/-- Whether the name occurs unqualified as a value or as a constructor, in patterns too. -/
def isValueUsed (usage : Usage) (name : String) : Bool :=
  usage.references.any fun
    | .value none used | .ctor none used => used = name
    | _ => false

/-- Whether the name occurs unqualified as a type. -/
def isTypeUsed (usage : Usage) (name : String) : Bool :=
  usage.references.any fun
    | .type none used => used = name
    | _ => false

/-- Whether the operator is applied or referred to. -/
def isOperatorUsed (usage : Usage) (symbol : String) : Bool :=
  usage.references.any fun
    | .operator used => used = symbol
    | _ => false

end Usage

end ElmDiagnostics
