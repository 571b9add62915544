import ElmDiagnostics.Syntax.Module
import ElmDiagnostics.Table

/-!
Contract: what a module shows to the modules that import it.

Owns: interfaces and how one is read off a module.

A name that is exposed twice is judged by its first item. Constructors belong to the interface
only with an open item, and an alias counts as a type without constructors.
-/

set_option autoImplicit false

namespace ElmDiagnostics

/-- The visible names of a module. -/
structure Interface where
  name : String
  /-- Exposed values and ports, in declaration order. -/
  values : List String
  /-- Exposed types, each with the constructors exposed along with it. -/
  types : Table String (List String)

namespace Interface

/-- The first exposed item of that name. -/
def exposedAs? (m : Module) (name : String) : Option ExposedItem :=
  m.exposedItems.find? fun item => item.name.text = name

/-- Whether a value or port of that name is visible. -/
def exposesValue (m : Module) (name : String) : Bool :=
  m.exposesAll ||
    match exposedAs? m name with
    | some (.value _) => true
    | _ => false

/-- The values a declaration adds. -/
def declaredValues (m : Module) : Declaration → List String
  | .value decl => if exposesValue m decl.name.text then [decl.name.text] else []
  | .port decl => if exposesValue m decl.name.text then [decl.name.text] else []
  | _ => []

/-- The type a declaration adds, with its visible constructors. -/
def declaredTypes (m : Module) : Declaration → List (String × List String)
  | .typeAlias decl =>
      if m.exposesAll || (exposedAs? m decl.name.text).isSome then [(decl.name.text, [])] else []
  | .customType decl =>
      let ctors := decl.ctors.map fun ctor => ctor.name.text
      if m.exposesAll then [(decl.name.text, ctors)]
      else
        match exposedAs? m decl.name.text with
        | some (.type _ constructors _) =>
            [(decl.name.text, if constructors.isSome then ctors else [])]
        | _ => []
  | _ => []

/-- The interface of a module. -/
def ofModule (m : Module) : Interface where
  name := m.name
  values := m.declarations.flatMap (declaredValues m)
  types := .ofList (m.declarations.flatMap (declaredTypes m))

/-- The constructors exposed with a type, if the module has such a type. -/
def constructorsOf? (interface : Interface) (typeName : String) : Option (List String) :=
  interface.types.get? typeName

end Interface

end ElmDiagnostics
