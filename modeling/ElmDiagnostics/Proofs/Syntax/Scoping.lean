import ElmDiagnostics.Proofs.Usage.Occurrence

/-!
Contract: lexical scoping of value names, and how far plain occurrence goes without it.

Owns: the expressions directly inside an expression together with the names bound around each; the
names free in an expression and the names bound inside it; that a free name is mentioned; and that a
mentioned name is free unless it is bound inside.

Does not own: which binders are reported.

Parameters bind in their body and a case pattern in its branch. The names of a `let` bind in all of
its right-hand sides and in its body. All of this is said in `Expr.scopedParts`, one constructor at a
time; the recursion over depth is the same for every notion.
-/

set_option autoImplicit false

namespace ElmDiagnostics

/-! ### One level of scoping -/

/-- An expression and the names that are bound around it. -/
structure ScopedExpr where
  bound : List String
  expr : Expr

namespace ScopedExpr

/-- The expression where nothing more is bound. -/
def plain (expr : Expr) : ScopedExpr := ⟨[], expr⟩

/-- The same expression inside the scope of some binders. -/
def under (binders : List Name) (part : ScopedExpr) : ScopedExpr :=
  ⟨binders.map (·.text) ++ part.bound, part.expr⟩

@[simp] theorem expr_plain (expr : Expr) : (plain expr).expr = expr := rfl

@[simp] theorem expr_under (binders : List Name) (part : ScopedExpr) :
    (part.under binders).expr = part.expr := rfl

end ScopedExpr

namespace LetDecl

/-- The names that a declaration brings into the scope of its `let`. -/
def binders : LetDecl → List Name
  | .value decl => [decl.name]
  | .destructure pattern _ _ => pattern.binders

/-- The right-hand side; only a function has names bound around it, its own parameters. -/
def rightSide : LetDecl → ScopedExpr
  | .value decl => (ScopedExpr.plain decl.body).under (Pattern.bindersOfList decl.params)
  | .destructure _ body _ => .plain body

end LetDecl

namespace Expr

/-- What the names of a `let` govern: its right-hand sides and its body. -/
def letScope (declarations : List LetDecl) (body : Expr) : List ScopedExpr :=
  declarations.map LetDecl.rightSide ++ [.plain body]

/-- The expressions directly inside an expression, with the names it binds around each of them. -/
def scopedParts : Expr → List ScopedExpr
  | .var _ | .ctor _ | .operator _ | .accessor _ | .literal _ | .unit _ => []
  | .negate inner _ | .paren inner _ | .access inner _ _ => [.plain inner]
  | .tuple items _ | .list items _ => items.map .plain
  | .record fields _ | .update _ fields _ => fields.map fun field => .plain field.value
  | .call function args _ => .plain function :: args.map .plain
  | .binary _ left right _ => [.plain left, .plain right]
  | .lambda params body _ => [(ScopedExpr.plain body).under (Pattern.bindersOfList params)]
  | .ifThenElse condition thenBranch elseBranch _ =>
      [.plain condition, .plain thenBranch, .plain elseBranch]
  | .caseOf scrutinee branches _ =>
      .plain scrutinee :: branches.map fun branch =>
        (ScopedExpr.plain branch.body).under branch.pattern.binders
  | .letIn declarations body _ =>
      (letScope declarations body).map (.under (declarations.flatMap LetDecl.binders))

/-- The unqualified value names written at the expression itself. -/
def ownNames (expr : Expr) : List String :=
  (Node.expr expr).ownReferences.filterMap Reference.localValue?

theorem expr_mem_letDecl_parts_iff (declaration : LetDecl) (child : Expr) :
    .expr child ∈ declaration.parts ↔ declaration.rightSide.expr = child := by
  cases declaration with
  | value decl => simp [LetDecl.parts, ValueDecl.parts, LetDecl.rightSide, eq_comm (a := child)]
  | destructure pattern body span => simp [LetDecl.parts, LetDecl.rightSide, eq_comm (a := child)]

/-- No expression directly inside is left out, and nothing else is among the parts. -/
theorem expr_mem_children_iff (expr child : Expr) :
    .expr child ∈ (Node.expr expr).children ↔ ∃ part ∈ expr.scopedParts, part.expr = child := by
  cases expr with
  | letIn declarations body span =>
      simp only [Node.children, List.mem_append, List.mem_flatMap, expr_mem_letDecl_parts_iff]
      simp [scopedParts, letScope, or_and_right, exists_or, eq_comm (a := child)]
  | _ => simp [Node.children, scopedParts, CaseBranch.parts, eq_comm (a := child)]

theorem sizeOf_lt_of_mem_scopedParts {expr : Expr} {part : ScopedExpr}
    (isPart : part ∈ expr.scopedParts) : sizeOf part.expr < sizeOf expr := by
  have isChild := (expr_mem_children_iff expr part.expr).mpr ⟨part, isPart, rfl⟩
  have smaller := Node.sizeOf_lt_of_mem_children isChild
  simpa using smaller

end Expr

/-! ### Values are mentioned in expressions only -/

namespace Node

def isExpr : Node → Bool
  | .expr _ => true
  | _ => false

theorem isExpr_of_mem_children {parent child : Node} (isChild : child ∈ parent.children)
    (childIsExpr : child.isExpr = true) : parent.isExpr = true := by
  cases child with
  | expr tree =>
      cases parent with
      | expr parentTree => rfl
      | pattern parentTree => cases parentTree <;> simp [children] at isChild
      | type parentTree => cases parentTree <;> simp [children] at isChild
  | _ => exact Bool.noConfusion childIsExpr

theorem isExpr_of_contains {outer inner : Node} (contains : outer.Contains inner)
    (innerIsExpr : inner.isExpr = true) : outer.isExpr = true := by
  induction contains using Relation.ReflTransGen.head_induction_on with
  | refl => exact innerIsExpr
  | head isChild _ inductionHypothesis => exact isExpr_of_mem_children isChild inductionHypothesis

theorem isExpr_of_value_mem_references {node : Node} {qualifier : Option String} {name : String}
    (collected : .value qualifier name ∈ node.references) : node.isExpr = true := by
  obtain ⟨inner, contains, own⟩ := mentions_of_mem_references collected
  refine isExpr_of_contains contains ?_
  cases inner with
  | expr tree => rfl
  | pattern tree => cases tree <;> simp [ownReferences] at own
  | type tree => cases tree <;> simp [ownReferences] at own

end Node

theorem Reference.mem_localValues_iff (references : List Reference) (name : String) :
    name ∈ references.filterMap localValue? ↔ .value none name ∈ references := by
  rw [List.mem_filterMap]
  constructor
  · rintro ⟨reference, collected, isLocal⟩
    cases reference with
    | value qualifier written =>
        cases qualifier with
        | none =>
            obtain rfl := Option.some.inj isLocal
            exact collected
        | some _ => exact absurd isLocal (by simp [localValue?])
    | _ => exact absurd isLocal (by simp [localValue?])
  · intro collected
    exact ⟨_, collected, rfl⟩

namespace Expr

/-- The names an expression mentions are its own and those its parts mention. -/
theorem mem_localValues_iff_own_or_part (expr : Expr) (name : String) :
    name ∈ expr.localValues ↔
      name ∈ expr.ownNames ∨ ∃ part ∈ expr.scopedParts, name ∈ part.expr.localValues := by
  have oneLevel := Node.mem_references_iff_own_or_child (.expr expr) (.value none name)
  simp only [localValues, ownNames, Reference.mem_localValues_iff]
  rw [← Node.references_expr, oneLevel]
  apply or_congr_right
  constructor
  · rintro ⟨child, isChild, collected⟩
    cases child with
    | expr tree =>
        obtain ⟨part, isPart, rfl⟩ := (expr_mem_children_iff expr tree).mp isChild
        exact ⟨part, isPart, collected⟩
    | _ => exact absurd (Node.isExpr_of_value_mem_references collected) (by simp [Node.isExpr])
  · rintro ⟨part, isPart, collected⟩
    have isChild := (expr_mem_children_iff expr part.expr).mpr ⟨part, isPart, rfl⟩
    exact ⟨.expr part.expr, isChild, collected⟩

/-! ### Free and bound names -/

/-- The unqualified value names that are free in the expression. -/
def freeNames (expr : Expr) : List String :=
  expr.ownNames ++ expr.scopedParts.attach.flatMap fun part =>
    part.1.expr.freeNames.filter fun name => name ∉ part.1.bound
termination_by sizeOf expr
decreasing_by exact sizeOf_lt_of_mem_scopedParts part.2

/-- The names that are bound somewhere inside the expression. -/
def boundNames (expr : Expr) : List String :=
  expr.scopedParts.attach.flatMap fun part => part.1.bound ++ part.1.expr.boundNames
termination_by sizeOf expr
decreasing_by exact sizeOf_lt_of_mem_scopedParts part.2

end Expr

namespace ScopedExpr

/-- The names free in the expression that are not bound around it. -/
def freeNames (part : ScopedExpr) : List String :=
  part.expr.freeNames.filter fun name => name ∉ part.bound

/-- The names bound around the expression or inside it. -/
def boundNames (part : ScopedExpr) : List String := part.bound ++ part.expr.boundNames

theorem mem_freeNames_of_not_mem_boundNames {part : ScopedExpr} {name : String}
    (freeInside : name ∉ part.expr.boundNames → name ∈ part.expr.freeNames)
    (notBound : name ∉ part.boundNames) : name ∈ part.freeNames := by
  rw [boundNames, List.mem_append, not_or] at notBound
  obtain ⟨notBoundAround, notBoundInside⟩ := notBound
  exact List.mem_filter.mpr ⟨freeInside notBoundInside, decide_eq_true notBoundAround⟩

end ScopedExpr

namespace Expr

theorem freeNames_eq (expr : Expr) :
    expr.freeNames = expr.ownNames ++ expr.scopedParts.flatMap ScopedExpr.freeNames := by
  rw [freeNames, List.flatMap_subtype (g := ScopedExpr.freeNames), List.unattach_attach]
  intro part isPart
  rfl

theorem boundNames_eq (expr : Expr) :
    expr.boundNames = expr.scopedParts.flatMap ScopedExpr.boundNames := by
  rw [boundNames, List.flatMap_subtype (g := ScopedExpr.boundNames), List.unattach_attach]
  intro part isPart
  rfl

theorem mem_freeNames_iff (expr : Expr) (name : String) :
    name ∈ expr.freeNames ↔
      name ∈ expr.ownNames ∨ ∃ part ∈ expr.scopedParts, name ∈ part.freeNames := by
  rw [freeNames_eq, List.mem_append, List.mem_flatMap]

theorem mem_boundNames_iff (expr : Expr) (name : String) :
    name ∈ expr.boundNames ↔ ∃ part ∈ expr.scopedParts, name ∈ part.boundNames := by
  rw [boundNames_eq, List.mem_flatMap]

/-- What every expression has when its parts have it, all expressions have. -/
theorem scopedParts_induction {motive : Expr → Prop}
    (step : ∀ expr, (∀ part ∈ expr.scopedParts, motive part.expr) → motive expr) :
    ∀ expr, motive expr :=
  fun expr => step expr fun part _ => scopedParts_induction step part.expr
termination_by expr => sizeOf expr
decreasing_by
  apply sizeOf_lt_of_mem_scopedParts
  assumption

theorem mem_localValues_of_mem_freeNames {name : String} :
    ∀ expr : Expr, name ∈ expr.freeNames → name ∈ expr.localValues := by
  apply scopedParts_induction
  intro expr inductionHypothesis free
  rw [mem_freeNames_iff] at free
  rw [mem_localValues_iff_own_or_part]
  rcases free with own | ⟨part, isPart, freeInPart⟩
  · exact .inl own
  · have freeInExpr := (List.mem_filter.mp freeInPart).1
    exact .inr ⟨part, isPart, inductionHypothesis part isPart freeInExpr⟩

/-- Only a name that is bound inside can be mentioned without being free. -/
theorem mem_freeNames_of_mem_localValues {name : String} :
    ∀ expr : Expr, name ∉ expr.boundNames → name ∈ expr.localValues → name ∈ expr.freeNames := by
  apply scopedParts_induction
  intro expr inductionHypothesis notBound mentioned
  rw [mem_localValues_iff_own_or_part] at mentioned
  rw [mem_freeNames_iff]
  rcases mentioned with own | ⟨part, isPart, inPart⟩
  · exact .inl own
  · have notBoundAtPart : name ∉ part.boundNames := by
      intro bound
      exact notBound ((mem_boundNames_iff expr name).mpr ⟨part, isPart, bound⟩)
    have freeInside := fun notBoundInside => inductionHypothesis part isPart notBoundInside inPart
    have freeInPart := ScopedExpr.mem_freeNames_of_not_mem_boundNames freeInside notBoundAtPart
    exact .inr ⟨part, isPart, freeInPart⟩

end Expr

end ElmDiagnostics
