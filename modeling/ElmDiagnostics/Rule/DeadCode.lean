import ElmDiagnostics.Rule.Basic

/-!
Contract: rules for declarations that nothing uses.

Owns: unused values and custom types, unused type aliases, unused constructors.

Values, custom types and aliases are judged by reachability. Constructors are judged by plain
occurrence anywhere in the module, and not at all when the module hands them to others.
-/

set_option autoImplicit false

namespace ElmDiagnostics.Rule

/-- Reports a value or custom type that cannot be reached. -/
def unusedTopLevelOf (usage : Usage) (declaration : Declaration) : List Diagnostic :=
  let name := declaration.name
  let id? : Option DeclId :=
    match declaration with
    | .value _ => some (.value name.text)
    | .customType _ => some (.customType name.text)
    | _ => none
  match id? with
  | some id =>
      if usage.isReachable id then []
      else [unusedTopLevel.report ("Unused top level definition " ++ quoted name.text) name.span]
  | none => []

/-- Values and custom types that cannot be reached. -/
def checkUnusedTopLevel (input : LintInput) : List Diagnostic :=
  input.tree.declarations.flatMap (unusedTopLevelOf input.usage)

/-- Reports an alias that cannot be reached. -/
def unusedTypeAliasOf (usage : Usage) : Declaration → List Diagnostic
  | .typeAlias decl =>
      if usage.isReachable (.typeAlias decl.name.text) then []
      else [unusedTypeAlias.report ("Unused type alias " ++ quoted decl.name.text) decl.span]
  | _ => []

/-- Type aliases that cannot be reached. -/
def checkUnusedTypeAlias (input : LintInput) : List Diagnostic :=
  input.tree.declarations.flatMap (unusedTypeAliasOf input.usage)

/-- Whether the header exposes the type together with its constructors. -/
def exposesOpenType (tree : Module) (typeName : String) : Bool :=
  tree.exposedItems.any fun
    | .type name (some _) _ => name.text = typeName
    | _ => false

/-- Reports the constructors of a custom type that occur nowhere. -/
def unusedConstructorsOf (tree : Module) (usage : Usage) : Declaration → List Diagnostic
  | .customType decl =>
      if exposesOpenType tree decl.name.text then []
      else
        (decl.ctors.filter fun ctor => !usage.isValueUsed ctor.name.text).map fun ctor =>
          unusedConstructor.report ("Unused value constructor " ++ quoted ctor.name.text)
            ctor.name.span
  | _ => []

/-- Constructors that occur nowhere in a module that keeps them to itself. -/
def checkUnusedConstructor (input : LintInput) : List Diagnostic :=
  if input.tree.exposesAll then []
  else input.tree.declarations.flatMap (unusedConstructorsOf input.tree input.usage)

end ElmDiagnostics.Rule
