import ElmDiagnostics.Proofs.Rule.RecordTypes

/-!
Contract: collecting references and walking through expressions see the same tree.

Owns: that collecting goes through the nodes outermost first; that the nodes of an expression which
are expressions are those that the walk lists, in the same order; that the values and operators
collected from an expression are thus the ones written at the expressions of the walk; and that the
types collected from a module are those of the outermost types which the rules look through.

Does not own: what a reference resolves to, and which rules use which traversal.

The collector descends through patterns and signatures as well, so its list and that of the walk
are compared through `Node.nodes`, which leaves nothing out.
-/

set_option autoImplicit false

namespace ElmDiagnostics

/-! ### Collecting is reading names off the nodes -/

namespace Node

/-- What is collected from a node are the names at the nodes inside it, outermost first. -/
theorem references_eq_flatMap_nodes : ∀ node : Node,
    node.references = node.nodes.flatMap ownReferences := by
  apply children_induction
  intro node inductionHypothesis
  rw [references_eq_own_and_children, nodes_eq, List.flatMap_cons, List.flatMap_assoc]
  exact congrArg (node.ownReferences ++ ·) (List.flatMap_congr inductionHypothesis)

theorem mem_nodes_iff_contains (outer inner : Node) :
    inner ∈ outer.nodes ↔ outer.Contains inner := by
  rw [← exists_at?_iff_contains]
  exact outer.nodes_visited.enumerates.mem_iff inner

end Node

/-! ### The expressions among the nodes -/

section Walking

variable {β : Type} {gather : Node → List β}
  (elsewhereEmpty : ∀ node, node.isExpr = false → gather node = [])

include elsewhereEmpty

theorem LetDecl.flatMap_parts_of_exprs (declaration : LetDecl) :
    declaration.parts.flatMap gather = gather (.expr declaration.rightSide.expr) := by
  have noPattern : ∀ pattern, gather (.pattern pattern) = [] := fun _ => elsewhereEmpty _ rfl
  have noType : ∀ type, gather (.type type) = [] := fun _ => elsewhereEmpty _ rfl
  rw [Rule.flatMap_letDecl_parts noPattern]
  simp [noType]

/-- One level: the expressions among the children are the parts, in the same order. -/
theorem Expr.flatMap_children_of_exprs (expr : Expr) :
    (Node.expr expr).children.flatMap gather =
      expr.scopedParts.flatMap fun part => gather (.expr part.expr) := by
  have noPattern : ∀ pattern, gather (.pattern pattern) = [] := fun _ => elsewhereEmpty _ rfl
  cases expr with
  | letIn declarations body span =>
      simp [Node.children, scopedParts, letScope, List.flatMap_assoc, List.flatMap_map,
        LetDecl.flatMap_parts_of_exprs elsewhereEmpty]
  | caseOf scrutinee branches span =>
      simp [Node.children, scopedParts, CaseBranch.parts, List.flatMap_assoc, List.flatMap_map,
        noPattern]
  | lambda params body span =>
      simp [Node.children, scopedParts, List.flatMap_map, noPattern]
  | _ => simp [Node.children, scopedParts, List.flatMap_map]

theorem Node.flatMap_nodes_of_not_isExpr {node : Node} (notExpr : node.isExpr = false) :
    node.nodes.flatMap gather = [] := by
  rw [List.flatMap_eq_nil_iff]
  intro inner isInside
  apply elsewhereEmpty
  rw [mem_nodes_iff_contains] at isInside
  rw [← Bool.not_eq_true] at notExpr ⊢
  exact mt (isExpr_of_contains isInside) notExpr

/-- Every depth: what the expressions among the nodes give is given by the expressions of the walk,
in the same order. -/
theorem Expr.flatMap_nodes_eq_flatMap_subexprs (expr : Expr) :
    (Node.expr expr).nodes.flatMap gather =
      expr.subexprs.flatMap fun inner => gather (.expr inner) := by
  induction expr using scopedParts_induction with
  | step expr inductionHypothesis =>
      rw [Node.nodes_eq, subexprs_eq_self_and_parts, List.flatMap_cons, List.flatMap_cons,
        List.flatMap_assoc, List.flatMap_assoc,
        flatMap_children_of_exprs fun _ => Node.flatMap_nodes_of_not_isExpr elsewhereEmpty]
      exact congrArg (gather (.expr expr) ++ ·) (List.flatMap_congr inductionHypothesis)

end Walking

def Node.expr? : Node → Option Expr
  | .expr tree => some tree
  | _ => none

theorem Node.expr?_eq_some_iff (node : Node) (tree : Expr) :
    node.expr? = some tree ↔ node = .expr tree := by
  cases node <;> simp [expr?]

theorem Expr.filterMap_expr?_nodes (expr : Expr) :
    (Node.expr expr).nodes.filterMap Node.expr? = expr.subexprs := by
  have elsewhere : ∀ node : Node, node.isExpr = false → node.expr?.toList = [] := by
    intro node notExpr
    cases node with
    | expr tree => cases notExpr
    | _ => rfl
  rw [List.filterMap_eq_flatMap_toList, flatMap_nodes_eq_flatMap_subexprs elsewhere]
  exact List.flatMap_singleton' expr.subexprs

/-! ### Values and operators -/

namespace Reference

def isValue : Reference → Bool
  | .value _ _ => true
  | _ => false

def isType : Reference → Bool
  | .type _ _ => true
  | _ => false

def isOperator : Reference → Bool
  | .operator _ => true
  | _ => false

end Reference

namespace Expr

/-- The value that an expression itself names: a variable, or the record that it updates. -/
def ownValue? : Expr → Option Reference
  | .var name => some (.value name.qualifierText name.base.text)
  | .update target _ _ => some (.value none target.text)
  | _ => none

/-- The operator that an expression itself names, applied to operands or on its own. -/
def ownOperator? : Expr → Option Reference
  | .operator symbol | .binary symbol _ _ _ => some (.operator symbol.text)
  | _ => none

end Expr

/-- Values and operators are named by expressions only. -/
theorem Node.ownReferences_of_not_isExpr {node : Node} (notExpr : node.isExpr = false) :
    ∀ reference ∈ node.ownReferences,
      reference.isValue = false ∧ reference.isOperator = false := by
  intro reference own
  cases node with
  | expr tree => cases notExpr
  | pattern tree => cases tree <;> simp_all [ownReferences, Reference.isValue, Reference.isOperator]
  | type tree => cases tree <;> simp_all [ownReferences, Reference.isValue, Reference.isOperator]

namespace Expr

/-- References of a kind that only expressions name are collected in the order of the walk. -/
theorem filter_references_eq_filterMap_subexprs {isKind : Reference → Bool}
    {own? : Expr → Option Reference}
    (ofExpr : ∀ expr, (Node.expr expr).ownReferences.filter isKind = (own? expr).toList)
    (elsewhere : ∀ node : Node, node.isExpr = false →
      ∀ reference ∈ node.ownReferences, isKind reference = false)
    (expr : Expr) : expr.references.filter isKind = expr.subexprs.filterMap own? := by
  have elsewhereEmpty : ∀ node : Node, node.isExpr = false →
      node.ownReferences.filter isKind = [] := by
    intro node notExpr
    simpa using elsewhere node notExpr
  rw [← Node.references_expr, Node.references_eq_flatMap_nodes, List.filter_flatMap,
    flatMap_nodes_eq_flatMap_subexprs elsewhereEmpty, List.filterMap_eq_flatMap_toList]
  simp only [ofExpr]

theorem values_eq_filterMap_subexprs (expr : Expr) :
    expr.references.filter Reference.isValue = expr.subexprs.filterMap ownValue? := by
  apply filter_references_eq_filterMap_subexprs
  · intro expr
    cases expr <;> rfl
  · intro node notExpr reference own
    exact (Node.ownReferences_of_not_isExpr notExpr reference own).1

theorem operators_eq_filterMap_subexprs (expr : Expr) :
    expr.references.filter Reference.isOperator = expr.subexprs.filterMap ownOperator? := by
  apply filter_references_eq_filterMap_subexprs
  · intro expr
    cases expr <;> rfl
  · intro node notExpr reference own
    exact (Node.ownReferences_of_not_isExpr notExpr reference own).2

end Expr

/-! ### Types -/

namespace Node

/-- The types named at a node itself. -/
def ownTypes (node : Node) : List Reference := node.ownReferences.filter Reference.isType

theorem ownTypes_expr (expr : Expr) : (Node.expr expr).ownTypes = [] := by
  cases expr <;> rfl

theorem ownTypes_pattern (pattern : Pattern) : (Node.pattern pattern).ownTypes = [] := by
  cases pattern <;> rfl

theorem ownTypes_type (type : TypeExpr) :
    (Node.type type).ownTypes = (Node.type type).ownReferences := by
  cases type <;> rfl

theorem filter_isType_references (node : Node) :
    node.references.filter Reference.isType = node.nodes.flatMap ownTypes := by
  rw [references_eq_flatMap_nodes, List.filter_flatMap]
  rfl

/-- From a type nothing but types is collected. -/
theorem flatMap_ownTypes_nodes_type (type : TypeExpr) :
    (Node.type type).nodes.flatMap ownTypes = type.references := by
  rw [← references_type, references_eq_flatMap_nodes, nodes_type, List.flatMap_map,
    List.flatMap_map]
  simp only [ownTypes_type]

end Node

namespace Declaration

theorem filter_isType_references (declaration : Declaration) :
    declaration.references.filter Reference.isType =
      declaration.parts.flatMap fun part => part.nodes.flatMap Node.ownTypes := by
  simp only [← Node.filter_isType_references]
  cases declaration with
  | value decl => rw [references, parts, ValueDecl.references_eq_flatMap, List.filter_flatMap]
  | customType decl =>
      simp only [references, parts, CtorDecl.references, TypeExpr.referencesOfList_eq_flatMap,
        List.filter_flatMap, List.flatMap_assoc, List.flatMap_map, Node.references_type]
  | operator decl => rfl
  | _ => simp [references, parts]

/-- The types collected from a declaration are those of its outermost types, up to order. -/
theorem types_perm_typeRootsOf (declaration : Declaration) :
    (declaration.references.filter Reference.isType).Perm
      ((Rule.typeRootsOf declaration).flatMap TypeExpr.references) := by
  have byNodes := Rule.flatMap_nodes_declaration_perm Node.ownTypes_expr Node.ownTypes_pattern
    declaration
  simp only [Node.flatMap_ownTypes_nodes_type] at byNodes
  rw [filter_isType_references]
  exact byNodes

end Declaration

/-! ### The same tree -/

namespace Expr

/-- Positions lead to the expressions that stand inside, and to nothing else. -/
theorem exists_at?_iff_contains (outer inner : Expr) :
    (∃ path, outer.at? path = some inner) ↔ (Node.expr outer).Contains (.expr inner) := by
  have isListed := congrArg (inner ∈ ·) (filterMap_expr?_nodes outer)
  simp only [List.mem_filterMap, Node.expr?_eq_some_iff, exists_eq_right, eq_iff_iff] at isListed
  rw [← outer.subexprs_visited.enumerates.mem_iff, ← isListed, Node.mem_nodes_iff_contains]

end Expr

/-- The collector and the walk see the same tree. From every expression, the values that are
collected are, in order, the variables and record-update targets written at the expressions of the
walk, and the operators those applied or named there. The walk visits every expression that stands
inside, each position once and outer expressions before inner ones. From the declarations of every
module, the types that are collected are those of the outermost types which are looked through, each
as often. -/
theorem traversals_see_same_tree :
    (∀ expr : Expr,
      expr.references.filter Reference.isValue = expr.subexprs.filterMap Expr.ownValue? ∧
      expr.references.filter Reference.isOperator = expr.subexprs.filterMap Expr.ownOperator? ∧
      VisitsOutermostFirst expr.at? expr.subexprs ∧
      ∀ inner, (∃ path, expr.at? path = some inner) ↔ (Node.expr expr).Contains (.expr inner)) ∧
    ∀ m : Module,
      (m.declarations.flatMap fun declaration =>
        declaration.references.filter Reference.isType).Perm
        ((m.declarations.flatMap Rule.typeRootsOf).flatMap TypeExpr.references) := by
  constructor
  · intro expr
    exact ⟨expr.values_eq_filterMap_subexprs, expr.operators_eq_filterMap_subexprs,
      expr.subexprs_visited, expr.exists_at?_iff_contains⟩
  · intro m
    rw [List.flatMap_assoc]
    refine List.Perm.flatMap_left _ ?_
    intro declaration _
    exact declaration.types_perm_typeRootsOf

end ElmDiagnostics
