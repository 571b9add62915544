import ElmDiagnostics.Proofs.Syntax.Position
import ElmDiagnostics.Proofs.Usage.NameUse

/-!
Contract: every node of a module stands at a position of its own.

Owns: the nodes inside a node, outermost first; the node at a position, inside another node and in a
module; that listing the nodes visits every position exactly once; that the positions lead to the
nodes the module holds and to no others; and which nodes stand inside a type and inside a pattern.

Does not own: the traversals by which the rules look for types or for expressions.

Everything is said through `Node.children`, so depth is treated once for expressions, patterns and
types alike.
-/

set_option autoImplicit false

namespace ElmDiagnostics

/-! ### Positions in a node -/

namespace Node

/-- What every node has when its children have it, all nodes have. -/
theorem children_induction {motive : Node → Prop}
    (step : ∀ node, (∀ child ∈ node.children, motive child) → motive node) :
    ∀ node, motive node :=
  fun node => step node fun child _ => children_induction step child
termination_by node => sizeOf node
decreasing_by
  apply sizeOf_lt_of_mem_children
  assumption

/-- The node and every node inside it, outer nodes before their children. -/
def nodes (node : Node) : List Node :=
  node :: node.children.attach.flatMap fun child => child.val.nodes
termination_by sizeOf node
decreasing_by exact sizeOf_lt_of_mem_children child.property

theorem nodes_eq (node : Node) : node.nodes = node :: node.children.flatMap nodes := by
  rw [nodes]
  simp

/-- The node that a path of child numbers leads to. -/
def at? : Node → List Nat → Option Node
  | node, [] => some node
  | node, index :: path => node.children[index]?.bind fun child => child.at? path

/-- Every node inside a node is listed, position by position, once each and before the nodes inside
it. -/
theorem nodes_visited : ∀ node : Node, VisitsOutermostFirst node.at? node.nodes := by
  apply children_induction
  intro node inductionHypothesis
  rw [nodes_eq]
  exact .self_and_parts node inductionHypothesis rfl fun _ _ => rfl

/-- Paths lead to the nodes that stand inside, and to nothing else. -/
theorem exists_at?_iff_contains (outer inner : Node) :
    (∃ path, outer.at? path = some inner) ↔ outer.Contains inner := by
  constructor
  · rintro ⟨path, found⟩
    induction path generalizing outer with
    | nil =>
        obtain rfl : outer = inner := Option.some.inj found
        exact .refl
    | cons index path inductionHypothesis =>
        obtain ⟨child, atIndex, foundInside⟩ := Option.bind_eq_some_iff.mp found
        exact (inductionHypothesis child foundInside).head (List.mem_of_getElem? atIndex)
  · intro contains
    induction contains using Relation.ReflTransGen.head_induction_on with
    | refl => exact ⟨[], rfl⟩
    | head isChild _ inductionHypothesis =>
        obtain ⟨path, found⟩ := inductionHypothesis
        obtain ⟨index, atIndex⟩ := List.mem_iff_getElem?.mp isChild
        exact ⟨index :: path, Option.bind_eq_some_iff.mpr ⟨_, atIndex, found⟩⟩

end Node

/-! ### Nodes inside types and patterns -/

/-- The types directly inside a type. -/
def TypeExpr.parts : TypeExpr → List TypeExpr
  | .var _ | .unit _ => []
  | .ref _ items _ | .tuple items _ => items
  | .function domain codomain _ => [domain, codomain]
  | .record _ fields _ => fields.map (·.type)

/-- The patterns directly inside a pattern. -/
def Pattern.parts : Pattern → List Pattern
  | .wildcard _ | .var _ | .literal _ | .unit _ | .record _ _ => []
  | .paren inner _ | .named inner _ _ => [inner]
  | .tuple items _ | .list items _ | .ctor _ items _ => items
  | .cons head tail _ => [head, tail]

namespace TypeExpr

theorem subtypesOfList_eq_flatMap (types : List TypeExpr) :
    subtypesOfList types = types.flatMap subtypes := by
  induction types with
  | nil => rfl
  | cons type rest inductionHypothesis =>
      rw [subtypesOfList, inductionHypothesis, List.flatMap_cons]

theorem subtypesOfFields_eq_flatMap (fields : List TypeField) :
    subtypesOfFields fields = fields.flatMap fun field => field.type.subtypes := by
  induction fields with
  | nil => rfl
  | cons field rest inductionHypothesis =>
      obtain ⟨name, type, span⟩ := field
      rw [subtypesOfFields, inductionHypothesis, List.flatMap_cons]

theorem subtypes_eq_self_and_parts (type : TypeExpr) :
    type.subtypes = type :: type.parts.flatMap subtypes := by
  cases type <;>
    simp [subtypes, parts, subtypesOfList_eq_flatMap, subtypesOfFields_eq_flatMap, List.flatMap_map]

end TypeExpr

namespace Node

theorem children_type (type : TypeExpr) : (Node.type type).children = type.parts.map .type := by
  cases type <;> simp [children, TypeExpr.parts]

theorem children_pattern (pattern : Pattern) :
    (Node.pattern pattern).children = pattern.parts.map .pattern := by
  cases pattern <;> rfl

/-- Inside a type stand the types that its own traversal lists, in the same order. -/
theorem nodes_type (type : TypeExpr) : (Node.type type).nodes = type.subtypes.map .type := by
  generalize isType : Node.type type = node
  induction node using children_induction generalizing type with
  | step node inductionHypothesis =>
      subst isType
      rw [nodes_eq, type.subtypes_eq_self_and_parts, children_type, List.map_cons, List.flatMap_map,
        List.map_flatMap]
      refine congrArg (Node.type type :: ·) (List.flatMap_congr ?_)
      intro part isPart
      refine inductionHypothesis (.type part) ?_ part rfl
      rw [children_type]
      exact List.mem_map_of_mem isPart

/-- Inside a pattern stand patterns only. -/
theorem pattern_of_mem_nodes {pattern : Pattern} {node : Node}
    (isInside : node ∈ (Node.pattern pattern).nodes) : ∃ inner, node = .pattern inner := by
  generalize isPattern : Node.pattern pattern = outer at isInside
  induction outer using children_induction generalizing pattern with
  | step outer inductionHypothesis =>
      subst isPattern
      rw [nodes_eq, List.mem_cons, List.mem_flatMap] at isInside
      rcases isInside with rfl | ⟨child, isChild, isInside⟩
      · exact ⟨pattern, rfl⟩
      · obtain ⟨inner, rfl⟩ := pattern_of_mem_children isChild
        exact inductionHypothesis _ isChild rfl isInside

end Node

/-! ### Positions in a module -/

/-- Where a node stands in a module: in which declaration, in which part of it, and on which path of
child numbers from there. -/
structure NodePosition where
  declaration : Nat
  part : Nat
  path : List Nat

namespace NodePosition

def fields : NodePosition ≃ (Nat × Nat) × List Nat where
  toFun position := ((position.declaration, position.part), position.path)
  invFun label := ⟨label.1.1, label.1.2, label.2⟩
  left_inv _ := rfl
  right_inv _ := rfl

end NodePosition

namespace Module

/-- All nodes of a module, declaration by declaration. -/
def nodes (m : Module) : List Node := (m.declarations.flatMap Declaration.parts).flatMap Node.nodes

/-- The node at a position, if there is one. -/
def nodeAt? (m : Module) (position : NodePosition) : Option Node :=
  (m.declarations[position.declaration]?.bind fun declaration =>
    declaration.parts[position.part]?).bind fun part => part.at? position.path

/-- Every node of a module is listed, position by position, once each. -/
theorem nodes_enumerated (m : Module) : Enumerates m.nodeAt? m.nodes := by
  have declarations := Enumerates.byIndex m.declarations
  have parts := declarations.bind fun declaration _ => Enumerates.byIndex declaration.parts
  have inside := parts.bind fun part _ => part.nodes_visited.enumerates
  exact inside.relabel NodePosition.fields

/-- The positions lead to the nodes that the module holds. -/
theorem exists_nodeAt?_iff_holds (m : Module) (node : Node) :
    (∃ position, m.nodeAt? position = some node) ↔ m.Holds node := by
  constructor
  · rintro ⟨position, found⟩
    obtain ⟨part, foundPart, foundInside⟩ := Option.bind_eq_some_iff.mp found
    obtain ⟨declaration, foundDeclaration, isPart⟩ := Option.bind_eq_some_iff.mp foundPart
    have contains := (Node.exists_at?_iff_contains part node).mp ⟨_, foundInside⟩
    exact ⟨declaration, List.mem_of_getElem? foundDeclaration, part, List.mem_of_getElem? isPart,
      contains⟩
  · rintro ⟨declaration, declared, part, isPart, contains⟩
    obtain ⟨declarationIndex, foundDeclaration⟩ := List.mem_iff_getElem?.mp declared
    obtain ⟨partIndex, foundPart⟩ := List.mem_iff_getElem?.mp isPart
    obtain ⟨path, foundInside⟩ := (Node.exists_at?_iff_contains part node).mpr contains
    refine ⟨⟨declarationIndex, partIndex, path⟩, ?_⟩
    refine Option.bind_eq_some_iff.mpr ⟨part, ?_, foundInside⟩
    exact Option.bind_eq_some_iff.mpr ⟨declaration, foundDeclaration, foundPart⟩

end Module

end ElmDiagnostics
