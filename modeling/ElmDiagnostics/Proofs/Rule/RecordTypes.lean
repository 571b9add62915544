import ElmDiagnostics.Proofs.Syntax.NodePosition
import ElmDiagnostics.Rule.RuleSet
import Mathlib.Data.List.Perm.Basic

/-!
Contract: the rule for record types of a single field finds each of them exactly once.

Owns: that the types which the rule looks through are the types of the module, none left out and
none taken twice; and that its reports stand, one for one, for the positions of the record types
that it is about.

Does not own: the nodes of a module and their positions.

The rule goes through all expressions in search of signatures and then through the types that it has
found. A type deep inside an expression is thus met in another order than that of the text, which is
why the two lists agree up to order only.
-/

set_option autoImplicit false

namespace ElmDiagnostics

/-! ### Types are reached through signatures -/

def ValueDecl.signatureTypes (decl : ValueDecl) : List TypeExpr :=
  (decl.signature.map (·.type)).toList

def LetDecl.signatureTypes : LetDecl → List TypeExpr
  | .value decl => decl.signatureTypes
  | .destructure _ _ _ => []

namespace Rule

theorem letSignatures_letIn (declarations : List LetDecl) (body : Expr) (span : Span) :
    letSignatures (.letIn declarations body span) =
      declarations.flatMap LetDecl.signatureTypes := by
  rw [letSignatures, List.filterMap_eq_flatMap_toList]
  refine List.flatMap_congr ?_
  intro declaration _
  cases declaration <;> rfl

section Gathering

variable {β : Type} {gather : Node → List β}
  (patternsEmpty : ∀ pattern, gather (.pattern pattern) = [])

include patternsEmpty

theorem flatMap_valueDecl_parts (decl : ValueDecl) :
    decl.parts.flatMap gather =
      decl.signatureTypes.flatMap (fun type => gather (.type type)) ++
        gather (.expr decl.body) := by
  have params : (decl.params.map Node.pattern).flatMap gather = [] := by
    simp [List.flatMap_eq_nil_iff, patternsEmpty]
  cases isSigned : decl.signature <;>
    simp [ValueDecl.parts, ValueDecl.signatureTypes, isSigned, params]

theorem flatMap_letDecl_parts (declaration : LetDecl) :
    declaration.parts.flatMap gather =
      declaration.signatureTypes.flatMap (fun type => gather (.type type)) ++
        gather (.expr declaration.rightSide.expr) := by
  cases declaration with
  | value decl => exact flatMap_valueDecl_parts patternsEmpty decl
  | destructure pattern body span =>
      simp [LetDecl.parts, LetDecl.signatureTypes, LetDecl.rightSide, patternsEmpty]

/-- One level: what the children of an expression give comes from the signatures of a `let` and from
the expressions directly inside. -/
theorem flatMap_children_perm (expr : Expr) :
    ((Node.expr expr).children.flatMap gather).Perm
      ((letSignatures expr).flatMap (fun type => gather (.type type)) ++
        expr.scopedParts.flatMap fun part => gather (.expr part.expr)) := by
  cases expr with
  | letIn declarations body span =>
      -- The signatures of the declarations stand between their right-hand sides.
      have apart := List.flatMap_append_perm declarations
        (fun declaration => declaration.signatureTypes.flatMap fun type => gather (.type type))
        (fun declaration => gather (.expr declaration.rightSide.expr))
      simp only [Node.children, Expr.scopedParts, Expr.letScope, letSignatures_letIn,
        List.flatMap_append, List.flatMap_assoc, flatMap_letDecl_parts patternsEmpty,
        List.map_append, List.map_map, List.flatMap_map, List.flatMap_singleton, List.map_cons, List.map_nil,
        Function.comp_apply, ScopedExpr.expr_under, ScopedExpr.expr_plain]
      rw [← List.append_assoc]
      exact apart.symm.append_right (gather (.expr body))
  | caseOf scrutinee branches span =>
      simp [Node.children, Expr.scopedParts, letSignatures, CaseBranch.parts, List.flatMap_assoc,
        List.flatMap_map, patternsEmpty]
  | lambda params body span =>
      have none : (params.map Node.pattern).flatMap gather = [] := by
        simp [List.flatMap_eq_nil_iff, patternsEmpty]
      simp [Node.children, Expr.scopedParts, letSignatures, none]
  | _ => simp [Node.children, Expr.scopedParts, letSignatures, List.flatMap_map]

end Gathering

/-! ### No type is left out, none is taken twice -/

section Own

variable {β : Type} {own : Node → List β} (exprsEmpty : ∀ expr, own (.expr expr) = [])
  (patternsEmpty : ∀ pattern, own (.pattern pattern) = [])

include patternsEmpty in
theorem flatMap_nodes_pattern (pattern : Pattern) :
    (Node.pattern pattern).nodes.flatMap own = [] := by
  rw [List.flatMap_eq_nil_iff]
  intro node isInside
  obtain ⟨inner, rfl⟩ := Node.pattern_of_mem_nodes isInside
  exact patternsEmpty inner

include exprsEmpty patternsEmpty

/-- Every depth: what types give anywhere in an expression is given by the types inside the
signatures of its `let`s. -/
theorem flatMap_nodes_expr_perm (expr : Expr) :
    ((Node.expr expr).nodes.flatMap own).Perm
      ((expr.subexprs.flatMap letSignatures).flatMap fun type =>
        (Node.type type).nodes.flatMap own) := by
  induction expr using Expr.scopedParts_induction with
  | step expr inductionHypothesis =>
      rw [Node.nodes_eq, List.flatMap_cons, exprsEmpty, List.nil_append, List.flatMap_assoc,
        expr.subexprs_eq_self_and_parts, List.flatMap_cons, List.flatMap_append]
      refine (flatMap_children_perm (flatMap_nodes_pattern patternsEmpty) expr).trans
        (.append_left _ ?_)
      rw [List.flatMap_assoc, List.flatMap_assoc]
      refine List.Perm.flatMap_left _ ?_
      intro part isPart
      rw [← List.flatMap_assoc]
      exact inductionHypothesis part isPart

theorem flatMap_nodes_declaration_perm (declaration : Declaration) :
    (declaration.parts.flatMap fun part => part.nodes.flatMap own).Perm
      ((typeRootsOf declaration).flatMap fun type => (Node.type type).nodes.flatMap own) := by
  cases declaration with
  | value decl =>
      rw [Declaration.parts, flatMap_valueDecl_parts (flatMap_nodes_pattern patternsEmpty),
        typeRootsOf, List.flatMap_append]
      exact (flatMap_nodes_expr_perm exprsEmpty patternsEmpty decl.body).append_left _
  | customType decl =>
      refine .of_eq ?_
      simp only [Declaration.parts, typeRootsOf, List.flatMap_assoc, List.flatMap_map]
  | _ => simp [Declaration.parts, typeRootsOf]

/-- What types give anywhere in a module is given by the types that are looked through, up to
order. -/
theorem flatMap_module_nodes_perm (m : Module) :
    (m.nodes.flatMap own).Perm
      (((m.declarations.flatMap typeRootsOf).flatMap TypeExpr.subtypes).flatMap fun type =>
        own (.type type)) := by
  have inside : ∀ type : TypeExpr, (Node.type type).nodes.flatMap own =
      type.subtypes.flatMap fun part => own (.type part) := by
    intro type
    rw [Node.nodes_type, List.flatMap_map]
  simp only [Module.nodes, List.flatMap_assoc, ← inside]
  refine List.Perm.flatMap_left _ ?_
  intro declaration _
  exact flatMap_nodes_declaration_perm exprsEmpty patternsEmpty declaration

end Own

end Rule

/-! ### Record types of a single field -/

/-- The span of a node that is a record type of exactly one field and extends no other record. -/
def Node.singleFieldRecord? : Node → Option Span
  | .type (.record none [_] span) => some span
  | _ => none

/-- The span of the record type of a single field that stands at a position, if one stands there. -/
def Module.singleFieldRecordAt? (m : Module) (position : NodePosition) : Option Span :=
  (m.nodeAt? position).bind Node.singleFieldRecord?

namespace Rule

theorem singleFieldRecord?_eq (type : TypeExpr) :
    (Node.type type).singleFieldRecord? =
      if type.isSingleFieldRecord then some type.span else none := by
  unfold TypeExpr.isSingleFieldRecord
  split <;> simp_all [Node.singleFieldRecord?, TypeExpr.span]

/-- The reported ranges are those of the record types of a single field, up to order. -/
theorem ranges_singleFieldRecord_perm (m : Module) (interfaces : Table String Interface) :
    ((checkSingleFieldRecord (.ofModule m interfaces)).map (·.range)).Perm
      (m.nodes.filterMap Node.singleFieldRecord?) := by
  have looked : (m.nodes.flatMap fun node => node.singleFieldRecord?.toList).Perm _ :=
    flatMap_module_nodes_perm (fun _ => rfl) (fun _ => rfl) m
  rw [← List.filterMap_eq_flatMap_toList, ← List.filterMap_eq_flatMap_toList] at looked
  refine .trans (.of_eq ?_) looked.symm
  simp only [singleFieldRecord?_eq]
  rw [checkSingleFieldRecord, List.map_map, ← List.filterMap_eq_map, List.filterMap_filter]
  rfl

/-- Every record type of a single field is reported once, wherever it stands: the reports are in
one-to-one correspondence with the positions at which such a type stands, and they have its span as
range. The positions reach every type that is written in the module, as a signature at the top level
or of a `let` at any depth, as an alias, as an argument of a constructor or as the type of a port,
and every type inside one of these. -/
theorem single_field_records_reported_once_each (m : Module) (interfaces : Table String Interface) :
    (∃ reports, Rule.singleFieldRecord.check (.ofModule m interfaces) = .ok reports ∧
      Enumerates m.singleFieldRecordAt? (reports.map (·.range))) ∧
    ∀ type, (∃ position, m.nodeAt? position = some (.type type)) ↔
      ∃ written, m.WritesType written ∧ (Node.type written).Contains (.type type) := by
  constructor
  · have positions := m.nodes_enumerated.filterMap Node.singleFieldRecord?
    exact ⟨_, rfl, positions.perm (ranges_singleFieldRecord_perm m interfaces)⟩
  · intro type
    rw [m.exists_nodeAt?_iff_holds]
    constructor
    · intro holds
      exact Module.exists_writesType_of_holds holds rfl
    · rintro ⟨written, isWritten, contains⟩
      exact isWritten.holds.of_contains contains

end Rule

end ElmDiagnostics
