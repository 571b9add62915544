import ElmDiagnostics.Usage.Reference
import Mathlib.Logic.Basic
import Mathlib.Logic.Relation

/-!
Contract: the collected references of a tree are exactly the names that occur in it.

Owns: `Node`, the pieces of a syntax tree; its direct children and the names written at the node
itself; occurrence at any depth; and that collecting references finds every occurrence and
nothing else.

Does not own: what a reference resolves to.

Children and own names are listed one constructor at a time, without recursion. Depth comes from
the transitive closure of the child relation alone.
-/

set_option autoImplicit false

namespace ElmDiagnostics

/-- A piece of a syntax tree in which names can occur. -/
inductive Node where
  | expr (tree : Expr)
  | pattern (tree : Pattern)
  | type (tree : TypeExpr)

/-! ### Children and own names -/

/-- The trees a value declaration is made of: signature, parameters, body. -/
def ValueDecl.parts (decl : ValueDecl) : List Node :=
  (decl.signature.toList.map fun signature => .type signature.type) ++
    (decl.params.map .pattern ++ [.expr decl.body])

def LetDecl.parts : LetDecl → List Node
  | .value decl => decl.parts
  | .destructure pattern body _ => [.pattern pattern, .expr body]

def CaseBranch.parts (branch : CaseBranch) : List Node := [.pattern branch.pattern, .expr branch.body]

namespace Node

/-- The nodes that stand directly inside a node. -/
def children : Node → List Node
  | .expr (.var _) | .expr (.ctor _) | .expr (.operator _) | .expr (.accessor _)
  | .expr (.literal _) | .expr (.unit _) => []
  | .expr (.negate inner _) | .expr (.paren inner _) => [.expr inner]
  | .expr (.tuple items _) | .expr (.list items _) => items.map .expr
  | .expr (.record fields _) | .expr (.update _ fields _) => fields.map fun field => .expr field.value
  | .expr (.access base _ _) => [.expr base]
  | .expr (.call function args _) => .expr function :: args.map .expr
  | .expr (.binary _ left right _) => [.expr left, .expr right]
  | .expr (.lambda params body _) => params.map .pattern ++ [.expr body]
  | .expr (.ifThenElse condition thenBranch elseBranch _) =>
      [.expr condition, .expr thenBranch, .expr elseBranch]
  | .expr (.caseOf scrutinee branches _) => .expr scrutinee :: branches.flatMap CaseBranch.parts
  | .expr (.letIn declarations body _) => declarations.flatMap LetDecl.parts ++ [.expr body]
  | .pattern (.wildcard _) | .pattern (.var _) | .pattern (.literal _) | .pattern (.unit _)
  | .pattern (.record _ _) => []
  | .pattern (.paren inner _) | .pattern (.named inner _ _) => [.pattern inner]
  | .pattern (.tuple items _) | .pattern (.list items _) | .pattern (.ctor _ items _) =>
      items.map .pattern
  | .pattern (.cons head tail _) => [.pattern head, .pattern tail]
  | .type (.var _) | .type (.unit _) => []
  | .type (.ref _ items _) | .type (.tuple items _) => items.map .type
  | .type (.function domain codomain _) => [.type domain, .type codomain]
  | .type (.record _ fields _) => fields.map fun field => .type field.type

/-- The names that are written at a node itself. -/
def ownReferences : Node → List Reference
  | .expr (.var name) => [.value name.qualifierText name.base.text]
  | .expr (.ctor name) | .pattern (.ctor name _ _) => [.ctor name.qualifierText name.base.text]
  | .expr (.operator symbol) | .expr (.binary symbol _ _ _) => [.operator symbol.text]
  | .expr (.update target _ _) => [.value none target.text]
  | .type (.ref name _ _) => [.type name.qualifierText name.base.text]
  | _ => []

/-- `inner` is the node itself or stands inside it, at any depth. -/
def Contains : Node → Node → Prop := Relation.ReflTransGen fun parent child => child ∈ parent.children

/-- The reference is written somewhere in the node. -/
def Mentions (node : Node) (reference : Reference) : Prop :=
  ∃ inner, node.Contains inner ∧ reference ∈ inner.ownReferences

/-- What the collector gathers from a node. -/
def references : Node → List Reference
  | .expr tree => tree.references
  | .pattern tree => tree.references
  | .type tree => tree.references

@[simp] theorem references_expr (tree : Expr) : (Node.expr tree).references = tree.references := rfl

@[simp] theorem references_pattern (tree : Pattern) :
    (Node.pattern tree).references = tree.references := rfl

@[simp] theorem references_type (tree : TypeExpr) :
    (Node.type tree).references = tree.references := rfl

end Node

/-! ### Collecting from lists of trees -/

theorem Pattern.referencesOfList_eq_flatMap (patterns : List Pattern) :
    referencesOfList patterns = patterns.flatMap references := by
  induction patterns with
  | nil => rfl
  | cons pattern rest inductionHypothesis =>
      rw [referencesOfList, inductionHypothesis, List.flatMap_cons]

theorem TypeExpr.referencesOfList_eq_flatMap (types : List TypeExpr) :
    referencesOfList types = types.flatMap references := by
  induction types with
  | nil => rfl
  | cons type rest inductionHypothesis =>
      rw [referencesOfList, inductionHypothesis, List.flatMap_cons]

theorem TypeExpr.referencesOfFields_eq_flatMap (fields : List TypeField) :
    referencesOfFields fields = fields.flatMap fun field => field.type.references := by
  induction fields with
  | nil => rfl
  | cons field rest inductionHypothesis =>
      obtain ⟨name, type, span⟩ := field
      rw [referencesOfFields, inductionHypothesis, List.flatMap_cons]

theorem Expr.referencesOfList_eq_flatMap (exprs : List Expr) :
    referencesOfList exprs = exprs.flatMap references := by
  induction exprs with
  | nil => rfl
  | cons expr rest inductionHypothesis =>
      rw [referencesOfList, inductionHypothesis, List.flatMap_cons]

theorem Expr.referencesOfFields_eq_flatMap (fields : List ExprField) :
    referencesOfFields fields = fields.flatMap fun field => field.value.references := by
  induction fields with
  | nil => rfl
  | cons field rest inductionHypothesis =>
      obtain ⟨name, value, span⟩ := field
      rw [referencesOfFields, inductionHypothesis, List.flatMap_cons]

theorem Expr.referencesOfBranches_eq_flatMap (branches : List CaseBranch) :
    referencesOfBranches branches =
      (branches.flatMap CaseBranch.parts).flatMap Node.references := by
  induction branches with
  | nil => rfl
  | cons branch rest inductionHypothesis =>
      obtain ⟨pattern, body, span⟩ := branch
      rw [referencesOfBranches, inductionHypothesis]
      simp [CaseBranch.parts]

theorem ValueDecl.references_eq_flatMap (decl : ValueDecl) :
    decl.references = decl.parts.flatMap Node.references := by
  obtain ⟨signature, name, params, body, span⟩ := decl
  cases signature <;>
    simp [references, parts, Signature.references?, Pattern.referencesOfList_eq_flatMap,
      List.flatMap_map]

theorem Expr.referencesOfLetDecls_eq_flatMap (declarations : List LetDecl) :
    referencesOfLetDecls declarations =
      (declarations.flatMap LetDecl.parts).flatMap Node.references := by
  induction declarations with
  | nil => rfl
  | cons declaration rest inductionHypothesis =>
      cases declaration with
      | value decl =>
          have inDecl := decl.references_eq_flatMap
          obtain ⟨signature, name, params, body, span⟩ := decl
          rw [ValueDecl.references] at inDecl
          rw [referencesOfLetDecls, inDecl, inductionHypothesis, List.flatMap_cons,
            List.flatMap_append]
          rfl
      | destructure pattern body span =>
          simp [referencesOfLetDecls, inductionHypothesis, LetDecl.parts]

/-! ### One level at a time -/

namespace Node

/-- The collector gathers the names at a node and then what it gathers from the node's children, one
child after the other. -/
theorem references_eq_own_and_children (node : Node) :
    node.references = node.ownReferences ++ node.children.flatMap references := by
  cases node with
  | expr tree =>
      cases tree <;>
        simp [Expr.references, children, ownReferences, Expr.referencesOfList_eq_flatMap,
          Expr.referencesOfFields_eq_flatMap, Expr.referencesOfBranches_eq_flatMap,
          Expr.referencesOfLetDecls_eq_flatMap, Pattern.referencesOfList_eq_flatMap,
          List.flatMap_map]
  | pattern tree =>
      cases tree <;>
        simp [Pattern.references, children, ownReferences, Pattern.referencesOfList_eq_flatMap,
          List.flatMap_map]
  | type tree =>
      cases tree <;>
        simp [TypeExpr.references, children, ownReferences, TypeExpr.referencesOfList_eq_flatMap,
          TypeExpr.referencesOfFields_eq_flatMap, List.flatMap_map]

theorem mem_references_iff_own_or_child (node : Node) (reference : Reference) :
    reference ∈ node.references ↔
      reference ∈ node.ownReferences ∨ ∃ child ∈ node.children, reference ∈ child.references := by
  rw [references_eq_own_and_children, List.mem_append, List.mem_flatMap]

theorem sizeOf_le_of_mem_valueDecl {decl : ValueDecl} {node : Node} (isPart : node ∈ decl.parts) :
    sizeOf node ≤ sizeOf decl := by
  obtain ⟨signature, name, params, body, span⟩ := decl
  simp only [ValueDecl.parts, List.mem_append, List.mem_map, Option.mem_toList,
    List.mem_singleton] at isPart
  rcases isPart with ⟨⟨_, type, _⟩, rfl, rfl⟩ | ⟨param, inParams, rfl⟩ | rfl
  · simp
    omega
  · have := List.sizeOf_lt_of_mem inParams
    simp
    omega
  · simp
    omega

theorem sizeOf_le_of_mem_letDecl {declaration : LetDecl} {node : Node}
    (isPart : node ∈ declaration.parts) : sizeOf node ≤ sizeOf declaration := by
  cases declaration with
  | value decl =>
      have := sizeOf_le_of_mem_valueDecl isPart
      simp
      omega
  | destructure pattern body span =>
      simp only [LetDecl.parts, List.mem_cons, List.not_mem_nil, or_false] at isPart
      rcases isPart with rfl | rfl <;> simp <;> omega

theorem sizeOf_le_of_mem_branch {branch : CaseBranch} {node : Node}
    (isPart : node ∈ branch.parts) : sizeOf node ≤ sizeOf branch := by
  obtain ⟨pattern, body, span⟩ := branch
  simp only [CaseBranch.parts, List.mem_cons, List.not_mem_nil, or_false] at isPart
  rcases isPart with rfl | rfl <;> simp <;> omega

/-- A node is larger than each of its children. -/
theorem sizeOf_lt_of_mem_children {parent child : Node} (isChild : child ∈ parent.children) :
    sizeOf child < sizeOf parent := by
  cases parent with
  | expr tree =>
      cases tree with
      | var _ | ctor _ | operator _ | accessor _ | literal _ | unit _ => simp [children] at isChild
      | negate inner _ | paren inner _ | access inner _ _ =>
          obtain rfl : child = .expr inner := by simpa [children] using isChild
          simp
          omega
      | tuple items _ | list items _ =>
          obtain ⟨item, inItems, rfl⟩ := List.mem_map.mp isChild
          have := List.sizeOf_lt_of_mem inItems
          simp
          omega
      | record fields _ | update _ fields _ =>
          obtain ⟨⟨_, value, _⟩, inFields, rfl⟩ := List.mem_map.mp isChild
          have := List.sizeOf_lt_of_mem inFields
          simp at this ⊢
          omega
      | call function args _ =>
          rcases List.mem_cons.mp isChild with rfl | isArg
          · simp
            omega
          · obtain ⟨arg, inArgs, rfl⟩ := List.mem_map.mp isArg
            have := List.sizeOf_lt_of_mem inArgs
            simp
            omega
      | binary _ left right _ =>
          simp only [children, List.mem_cons, List.not_mem_nil, or_false] at isChild
          rcases isChild with rfl | rfl <;> simp <;> omega
      | lambda params body _ =>
          rcases List.mem_append.mp isChild with isParam | isBody
          · obtain ⟨param, inParams, rfl⟩ := List.mem_map.mp isParam
            have := List.sizeOf_lt_of_mem inParams
            simp
            omega
          · obtain rfl := List.mem_singleton.mp isBody
            simp
            omega
      | ifThenElse condition thenBranch elseBranch _ =>
          simp only [children, List.mem_cons, List.not_mem_nil, or_false] at isChild
          rcases isChild with rfl | rfl | rfl <;> simp <;> omega
      | caseOf scrutinee branches _ =>
          rcases List.mem_cons.mp isChild with rfl | isBranchPart
          · simp
            omega
          · obtain ⟨branch, inBranches, isPart⟩ := List.mem_flatMap.mp isBranchPart
            have := List.sizeOf_lt_of_mem inBranches
            have := sizeOf_le_of_mem_branch isPart
            simp
            omega
      | letIn declarations body _ =>
          rcases List.mem_append.mp isChild with isLetPart | isBody
          · obtain ⟨declaration, inDeclarations, isPart⟩ := List.mem_flatMap.mp isLetPart
            have := List.sizeOf_lt_of_mem inDeclarations
            have := sizeOf_le_of_mem_letDecl isPart
            simp
            omega
          · obtain rfl := List.mem_singleton.mp isBody
            simp
            omega
  | pattern tree =>
      cases tree with
      | wildcard _ | var _ | literal _ | unit _ | record _ _ => simp [children] at isChild
      | paren inner _ | named inner _ _ =>
          obtain rfl : child = .pattern inner := by simpa [children] using isChild
          simp
          omega
      | tuple items _ | list items _ | ctor _ items _ =>
          obtain ⟨item, inItems, rfl⟩ := List.mem_map.mp isChild
          have := List.sizeOf_lt_of_mem inItems
          simp
          omega
      | cons head tail _ =>
          simp only [children, List.mem_cons, List.not_mem_nil, or_false] at isChild
          rcases isChild with rfl | rfl <;> simp <;> omega
  | type tree =>
      cases tree with
      | var _ | unit _ => simp [children] at isChild
      | ref _ items _ | tuple items _ =>
          obtain ⟨item, inItems, rfl⟩ := List.mem_map.mp isChild
          have := List.sizeOf_lt_of_mem inItems
          simp
          omega
      | function domain codomain _ =>
          simp only [children, List.mem_cons, List.not_mem_nil, or_false] at isChild
          rcases isChild with rfl | rfl <;> simp <;> omega
      | record _ fields _ =>
          obtain ⟨⟨_, type, _⟩, inFields, rfl⟩ := List.mem_map.mp isChild
          have := List.sizeOf_lt_of_mem inFields
          simp at this ⊢
          omega

/-! ### Every depth -/

theorem mentions_of_mem_references {node : Node} {reference : Reference}
    (collected : reference ∈ node.references) : node.Mentions reference := by
  rcases (mem_references_iff_own_or_child node reference).mp collected with
    own | ⟨child, isChild, inChild⟩
  · exact ⟨node, .refl, own⟩
  · obtain ⟨inner, contains, own⟩ := mentions_of_mem_references inChild
    exact ⟨inner, contains.head isChild, own⟩
termination_by sizeOf node
decreasing_by exact sizeOf_lt_of_mem_children isChild

/-- The collector finds exactly the references that occur in a node, at whatever depth. -/
theorem mem_references_iff_mentions (node : Node) (reference : Reference) :
    reference ∈ node.references ↔ node.Mentions reference := by
  refine ⟨mentions_of_mem_references, ?_⟩
  rintro ⟨inner, contains, own⟩
  -- From the node that bears the name outwards: each parent gathers what its child gathers.
  induction contains using Relation.ReflTransGen.head_induction_on with
  | refl => exact (mem_references_iff_own_or_child inner reference).mpr (.inl own)
  | head isChild _ inductionHypothesis =>
      exact (mem_references_iff_own_or_child _ reference).mpr (.inr ⟨_, isChild, inductionHypothesis⟩)

end Node

end ElmDiagnostics
