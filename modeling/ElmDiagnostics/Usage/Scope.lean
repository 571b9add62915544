import ElmDiagnostics.Usage.Reference

/-!
Contract: the top-level names of a module and what they stand for inside it.

Owns: `DeclId`, the name tables of a module, and resolution of references in them.

Names live in three spaces: values and ports; types; constructors together with the aliases
of closed records. When a name is declared twice in a space, the last declaration counts.
Qualified names never resolve to a declaration of the module itself.
-/

set_option autoImplicit false

namespace ElmDiagnostics

/-- Identity of a top-level declaration or constructor. -/
inductive DeclId where
  | value (name : String)
  | port (name : String)
  | typeAlias (name : String)
  | customType (name : String)
  | ctor (name : String)
deriving DecidableEq, Repr

/-- The last value stored under `name`. -/
def latest {α : Type} (entries : List (String × α)) (name : String) : Option α :=
  entries.reverse.lookup name

/-- The values that look-up by name can find. -/
def latestValues {α : Type} (entries : List (String × α)) : List α :=
  entries.filterMap fun entry => latest entries entry.1

/-- The name tables of a module, in declaration order. -/
structure Scope where
  values : List (String × DeclId)
  types : List (String × DeclId)
  ctors : List (String × DeclId)
  /-- Each constructor under the name of its custom type. -/
  ctorsOfType : List (String × DeclId)
  /-- Each operator with the function it stands for. -/
  operators : List (String × String)
deriving DecidableEq, Repr

namespace Scope

/-- The entries of the value table that a declaration makes. -/
def valueEntries : Declaration → List (String × DeclId)
  | .value decl => [(decl.name.text, .value decl.name.text)]
  | .port decl => [(decl.name.text, .port decl.name.text)]
  | _ => []

/-- The entries of the type table that a declaration makes. -/
def typeEntries : Declaration → List (String × DeclId)
  | .typeAlias decl => [(decl.name.text, .typeAlias decl.name.text)]
  | .customType decl => [(decl.name.text, .customType decl.name.text)]
  | _ => []

/-- The entries of the constructor table that a declaration makes. -/
def ctorEntries : Declaration → List (String × DeclId)
  | .typeAlias decl =>
      if decl.isRecordConstructor then [(decl.name.text, .typeAlias decl.name.text)] else []
  | .customType decl => decl.ctors.map fun ctor => (ctor.name.text, .ctor ctor.name.text)
  | _ => []

/-- The constructors that a declaration puts under the name of its type. -/
def ctorOfTypeEntries : Declaration → List (String × DeclId)
  | .customType decl => decl.ctors.map fun ctor => (decl.name.text, .ctor ctor.name.text)
  | _ => []

/-- The operators that a declaration defines. -/
def operatorEntries : Declaration → List (String × String)
  | .operator decl => [(decl.symbol.text, decl.function.text)]
  | _ => []

/-- The name tables of a module. -/
def ofModule (m : Module) : Scope where
  values := m.declarations.flatMap valueEntries
  types := m.declarations.flatMap typeEntries
  ctors := m.declarations.flatMap ctorEntries
  ctorsOfType := m.declarations.flatMap ctorOfTypeEntries
  operators := m.declarations.flatMap operatorEntries

/-- The value or port of that name. -/
def value? (scope : Scope) (name : String) : Option DeclId := latest scope.values name

/-- The alias or custom type of that name. -/
def type? (scope : Scope) (name : String) : Option DeclId := latest scope.types name

/-- The constructor or record alias of that name. -/
def ctor? (scope : Scope) (name : String) : Option DeclId := latest scope.ctors name

/-- All constructors declared under a type name. -/
def ctorsOf (scope : Scope) (typeName : String) : List DeclId :=
  scope.ctorsOfType.filterMap fun entry => if entry.1 = typeName then some entry.2 else none

/-- The value that an operator stands for. -/
def operator? (scope : Scope) (symbol : String) : Option DeclId :=
  (latest scope.operators symbol).bind scope.value?

/-- The declaration a reference stands for, if it is one of this module. -/
def resolve (scope : Scope) : Reference → Option DeclId
  | .value none name => scope.value? name
  | .ctor none name => scope.ctor? name
  | .type none name => scope.type? name
  | _ => none

end Scope

end ElmDiagnostics
