import ElmDiagnostics.Proofs.Syntax.Relocation
import ElmDiagnostics.Usage.ModuleUsage

/-!
Contract: the usage analysis does not look at positions.

Owns: that name tables, reference graph, roots and usage of a module stay when its spans are moved.

Does not own: what rules make of the usage.
-/

set_option autoImplicit false

namespace ElmDiagnostics

variable (move : Span → Span)

/-! ### The usage analysis -/

theorem CtorDecl.references_relocate (decl : CtorDecl) :
    (decl.relocate move).references = decl.references :=
  TypeExpr.referencesOfList_relocate move decl.args

theorem Declaration.references_relocate (declaration : Declaration) :
    (declaration.relocate move).references = declaration.references := by
  cases declaration with
  | value decl =>
      show (decl.relocate move).references = decl.references
      rw [ValueDecl.references, ValueDecl.references, ValueDecl.relocate,
        Signature.references?_relocate, Pattern.referencesOfList_relocate, Expr.references_relocate]
  | typeAlias decl => exact decl.type.references_relocate move
  | customType decl =>
      show (decl.ctors.map (CtorDecl.relocate move)).flatMap CtorDecl.references = _
      rw [List.flatMap_map]
      simp only [CtorDecl.references_relocate, references]
  | port decl => exact decl.type.references_relocate move
  | operator decl => rfl

namespace Scope

theorem ctorEntries_relocate (declaration : Declaration) :
    ctorEntries (declaration.relocate move) = ctorEntries declaration := by
  cases declaration with
  | typeAlias decl =>
      show (if (decl.type.relocate move).isClosedRecord then _ else _) = _
      rw [TypeExpr.isClosedRecord_relocate]
      rfl
  | customType decl => exact List.map_map
  | _ => rfl

theorem ctorOfTypeEntries_relocate (declaration : Declaration) :
    ctorOfTypeEntries (declaration.relocate move) = ctorOfTypeEntries declaration := by
  cases declaration with
  | customType decl => exact List.map_map
  | _ => rfl

theorem ofModule_relocate (m : Module) : ofModule (m.relocate move) = ofModule m := by
  unfold ofModule
  rw [m.flatMap_declarations_relocate move ctorEntries (ctorEntries_relocate move),
    m.flatMap_declarations_relocate move ctorOfTypeEntries (ctorOfTypeEntries_relocate move)]
  congr 1
  all_goals
    apply Module.flatMap_declarations_relocate
    intro declaration
    cases declaration <;> rfl

end Scope

theorem CtorDecl.edges_relocate (scope : Scope) (owner : DeclId) (decl : CtorDecl) :
    (decl.relocate move).edges scope owner = decl.edges scope owner := by
  rw [edges, references_relocate, edges]
  rfl

theorem Declaration.edges_relocate (scope : Scope) (declaration : Declaration) :
    (declaration.relocate move).edges scope = declaration.edges scope := by
  unfold Declaration.edges
  rw [references_relocate]
  cases declaration with
  | customType decl =>
      show _ ++ (decl.ctors.map (CtorDecl.relocate move)).flatMap _ = _
      rw [List.flatMap_map]
      simp only [CtorDecl.edges_relocate]
      rfl
  | _ => rfl

theorem ExposedItem.roots_relocate (scope : Scope) (item : ExposedItem) :
    (item.relocate move).roots scope = item.roots scope := by
  cases item with
  | type name constructors span => cases constructors <;> rfl
  | _ => rfl

theorem PortDecl.roots_relocate (scope : Scope) (decl : PortDecl) :
    (decl.relocate move).roots scope = decl.roots scope := by
  rw [roots, relocate, TypeExpr.references_relocate, roots]
  rfl

namespace Module

theorem edges_relocate (m : Module) : (m.relocate move).edges = m.edges := by
  unfold edges
  rw [Scope.ofModule_relocate]
  exact m.flatMap_declarations_relocate move _ (Declaration.edges_relocate move _)

theorem exposedRoots_relocate (m : Module) (scope : Scope) :
    (m.relocate move).exposedRoots scope = m.exposedRoots scope := by
  unfold exposedRoots
  rw [exposesAll_relocate, exposedItems_relocate, List.flatMap_map]
  simp only [ExposedItem.roots_relocate]

theorem roots_relocate (m : Module) : (m.relocate move).roots = m.roots := by
  simp only [roots, Scope.ofModule_relocate, exposedRoots_relocate, kind_relocate,
    portDecls_relocate, List.flatMap_map, PortDecl.roots_relocate]

end Module

/-- Where things are written makes no difference to what is used. -/
theorem Usage.ofModule_relocate (m : Module) :
    Usage.ofModule (m.relocate move) = Usage.ofModule m := by
  unfold Usage.ofModule Module.references
  rw [Module.edges_relocate, Module.roots_relocate,
    m.flatMap_declarations_relocate move _ (Declaration.references_relocate move)]

end ElmDiagnostics
