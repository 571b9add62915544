import ElmDiagnostics.Proofs.Usage.Occurrence

/-!
Contract: what a tree keeps when its parentheses are removed.

Owns: patterns, expressions and modules without parentheses; that no parentheses are left in them at
any depth; and that binders, references and the expressions other than parentheses stay, in order.

Does not own: the rules that look at trees.

Removing parentheses puts what stands between them in their place. All other nodes keep their spans.
-/

set_option autoImplicit false

namespace ElmDiagnostics

/-! ### Patterns -/

namespace Pattern

mutual

/-- The pattern without parentheses at any depth. -/
def withoutParens : Pattern → Pattern
  | .wildcard span => .wildcard span
  | .var name => .var name
  | .literal token => .literal token
  | .unit span => .unit span
  | .paren inner _ => inner.withoutParens
  | .tuple items span => .tuple (withoutParensOfList items) span
  | .list items span => .list (withoutParensOfList items) span
  | .cons head tail span => .cons head.withoutParens tail.withoutParens span
  | .record fields span => .record fields span
  | .ctor name args span => .ctor name (withoutParensOfList args) span
  | .named inner name span => .named inner.withoutParens name span

def withoutParensOfList : List Pattern → List Pattern
  | [] => []
  | pattern :: rest => pattern.withoutParens :: withoutParensOfList rest

end

theorem withoutParensOfList_eq_map (patterns : List Pattern) :
    withoutParensOfList patterns = patterns.map withoutParens := by
  induction patterns with
  | nil => rfl
  | cons pattern rest inductionHypothesis =>
      rw [withoutParensOfList, inductionHypothesis, List.map_cons]

def isParen : Pattern → Bool
  | .paren _ _ => true
  | _ => false

theorem isParen_unparen (pattern : Pattern) : pattern.unparen.isParen = false := by
  induction pattern using unparen.induct with
  | case1 inner span inductionHypothesis => exact inductionHypothesis
  | case2 pattern notParen =>
      cases pattern with
      | paren inner span => exact absurd rfl (notParen inner span)
      | _ => rfl

theorem withoutParens_unparen (pattern : Pattern) :
    pattern.unparen.withoutParens = pattern.withoutParens := by
  induction pattern using unparen.induct with
  | case1 inner span inductionHypothesis => exact inductionHypothesis
  | case2 pattern notParen =>
      cases pattern with
      | paren inner span => exact absurd rfl (notParen inner span)
      | _ => rfl

theorem isParen_withoutParens (pattern : Pattern) : pattern.withoutParens.isParen = false := by
  have notParen := pattern.isParen_unparen
  rw [← withoutParens_unparen]
  cases core : pattern.unparen with
  | paren inner span =>
      rw [core] at notParen
      exact absurd notParen (by simp [isParen])
  | _ => rfl

theorem unparen_withoutParens (pattern : Pattern) :
    pattern.withoutParens.unparen = pattern.unparen.withoutParens := by
  have notParen := pattern.isParen_withoutParens
  rw [withoutParens_unparen]
  cases tree : pattern.withoutParens with
  | paren inner span =>
      rw [tree] at notParen
      exact absurd notParen (by simp [isParen])
  | _ => rfl

/-- What stands between the outer parentheses, before and after removing the inner ones. -/
theorem exists_core (pattern : Pattern) :
    ∃ core : Pattern, core.isParen = false ∧ pattern.unparen = core ∧
      pattern.withoutParens.unparen = core.withoutParens :=
  ⟨pattern.unparen, pattern.isParen_unparen, rfl, pattern.unparen_withoutParens⟩

mutual

theorem binders_withoutParens : ∀ pattern : Pattern, pattern.withoutParens.binders = pattern.binders
  | .wildcard _ | .var _ | .literal _ | .unit _ | .record _ _ => rfl
  | .paren inner _ => by rw [withoutParens, binders, binders_withoutParens inner]
  | .tuple items _ | .list items _ | .ctor _ items _ => by
      rw [withoutParens, binders, binders, bindersOfList_withoutParens items]
  | .cons head tail _ => by
      rw [withoutParens, binders, binders, binders_withoutParens head, binders_withoutParens tail]
  | .named inner _ _ => by rw [withoutParens, binders, binders, binders_withoutParens inner]

theorem bindersOfList_withoutParens : ∀ patterns : List Pattern,
    bindersOfList (withoutParensOfList patterns) = bindersOfList patterns
  | [] => rfl
  | pattern :: rest => by
      rw [withoutParensOfList, bindersOfList, bindersOfList, binders_withoutParens pattern,
        bindersOfList_withoutParens rest]

end

mutual

theorem references_withoutParens : ∀ pattern : Pattern,
    pattern.withoutParens.references = pattern.references
  | .wildcard _ | .var _ | .literal _ | .unit _ | .record _ _ => rfl
  | .paren inner _ => by rw [withoutParens, references, references_withoutParens inner]
  | .tuple items _ | .list items _ | .ctor _ items _ => by
      rw [withoutParens, references, references, referencesOfList_withoutParens items]
  | .cons head tail _ => by
      rw [withoutParens, references, references, references_withoutParens head,
        references_withoutParens tail]
  | .named inner _ _ => by rw [withoutParens, references, references, references_withoutParens inner]

theorem referencesOfList_withoutParens : ∀ patterns : List Pattern,
    referencesOfList (withoutParensOfList patterns) = referencesOfList patterns
  | [] => rfl
  | pattern :: rest => by
      rw [withoutParensOfList, referencesOfList, referencesOfList, references_withoutParens pattern,
        referencesOfList_withoutParens rest]

end

end Pattern

/-! ### Expressions -/

namespace Expr

mutual

/-- The expression without parentheses at any depth, in expressions and in patterns. -/
def withoutParens : Expr → Expr
  | .var name => .var name
  | .ctor name => .ctor name
  | .operator symbol => .operator symbol
  | .accessor field => .accessor field
  | .literal token => .literal token
  | .unit span => .unit span
  | .negate inner span => .negate inner.withoutParens span
  | .paren inner _ => inner.withoutParens
  | .tuple items span => .tuple (withoutParensOfList items) span
  | .list items span => .list (withoutParensOfList items) span
  | .record fields span => .record (withoutParensOfFields fields) span
  | .update target fields span => .update target (withoutParensOfFields fields) span
  | .access base field span => .access base.withoutParens field span
  | .call function args span => .call function.withoutParens (withoutParensOfList args) span
  | .binary symbol left right span => .binary symbol left.withoutParens right.withoutParens span
  | .lambda params body span =>
      .lambda (Pattern.withoutParensOfList params) body.withoutParens span
  | .ifThenElse condition thenBranch elseBranch span =>
      .ifThenElse condition.withoutParens thenBranch.withoutParens elseBranch.withoutParens span
  | .caseOf scrutinee branches span =>
      .caseOf scrutinee.withoutParens (withoutParensOfBranches branches) span
  | .letIn declarations body span =>
      .letIn (withoutParensOfLetDecls declarations) body.withoutParens span

def withoutParensOfList : List Expr → List Expr
  | [] => []
  | expr :: rest => expr.withoutParens :: withoutParensOfList rest

def withoutParensOfFields : List ExprField → List ExprField
  | [] => []
  | ⟨name, value, span⟩ :: rest => ⟨name, value.withoutParens, span⟩ :: withoutParensOfFields rest

def withoutParensOfBranches : List CaseBranch → List CaseBranch
  | [] => []
  | ⟨pattern, body, span⟩ :: rest =>
      ⟨pattern.withoutParens, body.withoutParens, span⟩ :: withoutParensOfBranches rest

def withoutParensOfLetDecls : List LetDecl → List LetDecl
  | [] => []
  | .value ⟨signature, name, params, body, span⟩ :: rest =>
      .value ⟨signature, name, Pattern.withoutParensOfList params, body.withoutParens, span⟩ ::
        withoutParensOfLetDecls rest
  | .destructure pattern body span :: rest =>
      .destructure pattern.withoutParens body.withoutParens span :: withoutParensOfLetDecls rest

end

end Expr

namespace ExprField

def withoutParens (field : ExprField) : ExprField :=
  ⟨field.name, field.value.withoutParens, field.span⟩

end ExprField

namespace CaseBranch

def withoutParens (branch : CaseBranch) : CaseBranch :=
  ⟨branch.pattern.withoutParens, branch.body.withoutParens, branch.span⟩

end CaseBranch

namespace ValueDecl

def withoutParens (decl : ValueDecl) : ValueDecl :=
  ⟨decl.signature, decl.name, Pattern.withoutParensOfList decl.params, decl.body.withoutParens,
    decl.span⟩

end ValueDecl

namespace LetDecl

def withoutParens : LetDecl → LetDecl
  | .value decl => .value decl.withoutParens
  | .destructure pattern body span => .destructure pattern.withoutParens body.withoutParens span

end LetDecl

namespace Expr

theorem withoutParensOfList_eq_map (exprs : List Expr) :
    withoutParensOfList exprs = exprs.map withoutParens := by
  induction exprs with
  | nil => rfl
  | cons expr rest inductionHypothesis =>
      rw [withoutParensOfList, inductionHypothesis, List.map_cons]

theorem withoutParensOfFields_eq_map (fields : List ExprField) :
    withoutParensOfFields fields = fields.map ExprField.withoutParens := by
  induction fields with
  | nil => rfl
  | cons field rest inductionHypothesis =>
      obtain ⟨name, value, span⟩ := field
      rw [withoutParensOfFields, inductionHypothesis, List.map_cons, ExprField.withoutParens]

theorem withoutParensOfBranches_eq_map (branches : List CaseBranch) :
    withoutParensOfBranches branches = branches.map CaseBranch.withoutParens := by
  induction branches with
  | nil => rfl
  | cons branch rest inductionHypothesis =>
      obtain ⟨pattern, body, span⟩ := branch
      rw [withoutParensOfBranches, inductionHypothesis, List.map_cons, CaseBranch.withoutParens]

theorem withoutParensOfLetDecls_eq_map (declarations : List LetDecl) :
    withoutParensOfLetDecls declarations = declarations.map LetDecl.withoutParens := by
  induction declarations with
  | nil => rfl
  | cons declaration rest inductionHypothesis =>
      cases declaration with
      | value decl =>
          obtain ⟨signature, name, params, body, span⟩ := decl
          rw [withoutParensOfLetDecls, inductionHypothesis, List.map_cons, LetDecl.withoutParens,
            ValueDecl.withoutParens]
      | destructure pattern body span =>
          rw [withoutParensOfLetDecls, inductionHypothesis, List.map_cons, LetDecl.withoutParens]

def isParen : Expr → Bool
  | .paren _ _ => true
  | _ => false

theorem isParen_unparen (expr : Expr) : expr.unparen.isParen = false := by
  induction expr using unparen.induct with
  | case1 inner span inductionHypothesis => exact inductionHypothesis
  | case2 expr notParen =>
      cases expr with
      | paren inner span => exact absurd rfl (notParen inner span)
      | _ => rfl

theorem withoutParens_unparen (expr : Expr) :
    expr.unparen.withoutParens = expr.withoutParens := by
  induction expr using unparen.induct with
  | case1 inner span inductionHypothesis => exact inductionHypothesis
  | case2 expr notParen =>
      cases expr with
      | paren inner span => exact absurd rfl (notParen inner span)
      | _ => rfl

theorem isParen_withoutParens (expr : Expr) : expr.withoutParens.isParen = false := by
  have notParen := expr.isParen_unparen
  rw [← withoutParens_unparen]
  cases core : expr.unparen with
  | paren inner span =>
      rw [core] at notParen
      exact absurd notParen (by simp [isParen])
  | _ => rfl

theorem unparen_withoutParens (expr : Expr) :
    expr.withoutParens.unparen = expr.unparen.withoutParens := by
  have notParen := expr.isParen_withoutParens
  rw [withoutParens_unparen]
  cases tree : expr.withoutParens with
  | paren inner span =>
      rw [tree] at notParen
      exact absurd notParen (by simp [isParen])
  | _ => rfl

/-- What stands between the outer parentheses, before and after removing the inner ones. -/
theorem exists_core (expr : Expr) :
    ∃ core : Expr, core.isParen = false ∧ expr.unparen = core ∧
      expr.withoutParens.unparen = core.withoutParens :=
  ⟨expr.unparen, expr.isParen_unparen, rfl, expr.unparen_withoutParens⟩

theorem span_withoutParens {expr : Expr} (notParen : expr.isParen = false) :
    expr.withoutParens.span = expr.span := by
  cases expr with
  | paren inner span => exact absurd notParen (by simp [isParen])
  | _ => rfl

mutual

theorem references_withoutParens : ∀ expr : Expr, expr.withoutParens.references = expr.references
  | .var _ | .ctor _ | .operator _ | .accessor _ | .literal _ | .unit _ => rfl
  | .paren inner _ => by rw [withoutParens, references, references_withoutParens inner]
  | .negate inner _ | .access inner _ _ => by
      rw [withoutParens, references, references, references_withoutParens inner]
  | .tuple items _ | .list items _ => by
      rw [withoutParens, references, references, referencesOfList_withoutParens items]
  | .record fields _ | .update _ fields _ => by
      rw [withoutParens, references, references, referencesOfFields_withoutParens fields]
  | .call function args _ => by
      rw [withoutParens, references, references, references_withoutParens function,
        referencesOfList_withoutParens args]
  | .binary _ left right _ => by
      rw [withoutParens, references, references, references_withoutParens left,
        references_withoutParens right]
  | .lambda params body _ => by
      rw [withoutParens, references, references, Pattern.referencesOfList_withoutParens params,
        references_withoutParens body]
  | .ifThenElse condition thenBranch elseBranch _ => by
      rw [withoutParens, references, references, references_withoutParens condition,
        references_withoutParens thenBranch, references_withoutParens elseBranch]
  | .caseOf scrutinee branches _ => by
      rw [withoutParens, references, references, references_withoutParens scrutinee,
        referencesOfBranches_withoutParens branches]
  | .letIn declarations body _ => by
      rw [withoutParens, references, references, referencesOfLetDecls_withoutParens declarations,
        references_withoutParens body]

theorem referencesOfList_withoutParens : ∀ exprs : List Expr,
    referencesOfList (withoutParensOfList exprs) = referencesOfList exprs
  | [] => rfl
  | expr :: rest => by
      rw [withoutParensOfList, referencesOfList, referencesOfList, references_withoutParens expr,
        referencesOfList_withoutParens rest]

theorem referencesOfFields_withoutParens : ∀ fields : List ExprField,
    referencesOfFields (withoutParensOfFields fields) = referencesOfFields fields
  | [] => rfl
  | ⟨_, value, _⟩ :: rest => by
      rw [withoutParensOfFields, referencesOfFields, referencesOfFields,
        references_withoutParens value, referencesOfFields_withoutParens rest]

theorem referencesOfBranches_withoutParens : ∀ branches : List CaseBranch,
    referencesOfBranches (withoutParensOfBranches branches) = referencesOfBranches branches
  | [] => rfl
  | ⟨pattern, body, _⟩ :: rest => by
      rw [withoutParensOfBranches, referencesOfBranches, referencesOfBranches,
        Pattern.references_withoutParens pattern, references_withoutParens body,
        referencesOfBranches_withoutParens rest]

theorem referencesOfLetDecls_withoutParens : ∀ declarations : List LetDecl,
    referencesOfLetDecls (withoutParensOfLetDecls declarations) = referencesOfLetDecls declarations
  | [] => rfl
  | .value ⟨_, _, params, body, _⟩ :: rest => by
      rw [withoutParensOfLetDecls, referencesOfLetDecls, referencesOfLetDecls,
        Pattern.referencesOfList_withoutParens params, references_withoutParens body,
        referencesOfLetDecls_withoutParens rest]
  | .destructure pattern body _ :: rest => by
      rw [withoutParensOfLetDecls, referencesOfLetDecls, referencesOfLetDecls,
        Pattern.references_withoutParens pattern, references_withoutParens body,
        referencesOfLetDecls_withoutParens rest]

end

theorem localValues_withoutParens (expr : Expr) :
    expr.withoutParens.localValues = expr.localValues := by
  rw [localValues, localValues, references_withoutParens]

/-- The expressions of a list that are not parentheses, each without the parentheses in it. -/
def unwrapped (exprs : List Expr) : List Expr :=
  (exprs.filter fun expr => !expr.isParen).map withoutParens

theorem unwrapped_append (first second : List Expr) :
    unwrapped (first ++ second) = unwrapped first ++ unwrapped second := by
  rw [unwrapped, List.filter_append, List.map_append, unwrapped, unwrapped]

theorem unwrapped_cons {expr : Expr} (notParen : expr.isParen = false) (rest : List Expr) :
    unwrapped (expr :: rest) = expr.withoutParens :: unwrapped rest := by
  rw [unwrapped, List.filter_cons_of_pos (by simp [notParen]), List.map_cons, unwrapped]

mutual

/-- Only the parentheses are missing from the expressions inside. -/
theorem subexprs_withoutParens : ∀ expr : Expr, expr.withoutParens.subexprs = unwrapped expr.subexprs
  | .var _ | .ctor _ | .operator _ | .accessor _ | .literal _ | .unit _ => rfl
  | .paren inner _ => by
      rw [withoutParens, subexprs_withoutParens inner, subexprs]
      rfl
  | .negate inner _ | .access inner _ _ => by
      rw [withoutParens, subexprs, subexprs, unwrapped_cons rfl, subexprs_withoutParens inner,
        withoutParens]
  | .lambda _ body _ => by
      rw [withoutParens, subexprs, subexprs, unwrapped_cons rfl, subexprs_withoutParens body,
        withoutParens]
  | .tuple items _ | .list items _ => by
      rw [withoutParens, subexprs, subexprs, unwrapped_cons rfl, subexprsOfList_withoutParens items,
        withoutParens]
  | .record fields _ | .update _ fields _ => by
      rw [withoutParens, subexprs, subexprs, unwrapped_cons rfl,
        subexprsOfFields_withoutParens fields, withoutParens]
  | .call function args _ => by
      rw [withoutParens, subexprs, subexprs, unwrapped_cons rfl, unwrapped_append,
        subexprs_withoutParens function, subexprsOfList_withoutParens args, withoutParens]
  | .binary _ left right _ => by
      rw [withoutParens, subexprs, subexprs, unwrapped_cons rfl, unwrapped_append,
        subexprs_withoutParens left, subexprs_withoutParens right, withoutParens]
  | .ifThenElse condition thenBranch elseBranch _ => by
      rw [withoutParens, subexprs, subexprs, unwrapped_cons rfl, unwrapped_append, unwrapped_append,
        subexprs_withoutParens condition, subexprs_withoutParens thenBranch,
        subexprs_withoutParens elseBranch, withoutParens]
  | .caseOf scrutinee branches _ => by
      rw [withoutParens, subexprs, subexprs, unwrapped_cons rfl, unwrapped_append,
        subexprs_withoutParens scrutinee, subexprsOfBranches_withoutParens branches, withoutParens]
  | .letIn declarations body _ => by
      rw [withoutParens, subexprs, subexprs, unwrapped_cons rfl, unwrapped_append,
        subexprsOfLetDecls_withoutParens declarations, subexprs_withoutParens body, withoutParens]

theorem subexprsOfList_withoutParens : ∀ exprs : List Expr,
    subexprsOfList (withoutParensOfList exprs) = unwrapped (subexprsOfList exprs)
  | [] => rfl
  | expr :: rest => by
      rw [withoutParensOfList, subexprsOfList, subexprsOfList, unwrapped_append,
        subexprs_withoutParens expr, subexprsOfList_withoutParens rest]

theorem subexprsOfFields_withoutParens : ∀ fields : List ExprField,
    subexprsOfFields (withoutParensOfFields fields) = unwrapped (subexprsOfFields fields)
  | [] => rfl
  | ⟨_, value, _⟩ :: rest => by
      rw [withoutParensOfFields, subexprsOfFields, subexprsOfFields, unwrapped_append,
        subexprs_withoutParens value, subexprsOfFields_withoutParens rest]

theorem subexprsOfBranches_withoutParens : ∀ branches : List CaseBranch,
    subexprsOfBranches (withoutParensOfBranches branches) = unwrapped (subexprsOfBranches branches)
  | [] => rfl
  | ⟨_, body, _⟩ :: rest => by
      rw [withoutParensOfBranches, subexprsOfBranches, subexprsOfBranches, unwrapped_append,
        subexprs_withoutParens body, subexprsOfBranches_withoutParens rest]

theorem subexprsOfLetDecls_withoutParens : ∀ declarations : List LetDecl,
    subexprsOfLetDecls (withoutParensOfLetDecls declarations) =
      unwrapped (subexprsOfLetDecls declarations)
  | [] => rfl
  | .value ⟨_, _, _, body, _⟩ :: rest => by
      rw [withoutParensOfLetDecls, subexprsOfLetDecls, subexprsOfLetDecls, unwrapped_append,
        subexprs_withoutParens body, subexprsOfLetDecls_withoutParens rest]
  | .destructure _ body _ :: rest => by
      rw [withoutParensOfLetDecls, subexprsOfLetDecls, subexprsOfLetDecls, unwrapped_append,
        subexprs_withoutParens body, subexprsOfLetDecls_withoutParens rest]

end

end Expr

/-! ### Modules -/

def Declaration.withoutParens : Declaration → Declaration
  | .value decl => .value decl.withoutParens
  | .typeAlias decl => .typeAlias decl
  | .customType decl => .customType decl
  | .port decl => .port decl
  | .operator decl => .operator decl

namespace Module

/-- The module without parentheses in its expressions and patterns. Types have none. -/
def withoutParens (m : Module) : Module :=
  { m with declarations := m.declarations.map Declaration.withoutParens }

theorem valueDecls_withoutParens (m : Module) :
    m.withoutParens.valueDecls = m.valueDecls.map ValueDecl.withoutParens := by
  rw [valueDecls, valueDecls, withoutParens, List.filterMap_map, List.map_filterMap]
  congr 1
  funext declaration
  cases declaration <;> rfl

theorem portDecls_withoutParens (m : Module) : m.withoutParens.portDecls = m.portDecls := by
  rw [portDecls, portDecls, withoutParens, List.filterMap_map]
  congr 1
  funext declaration
  cases declaration <;> rfl

theorem exprs_withoutParens (m : Module) : m.withoutParens.exprs = Expr.unwrapped m.exprs := by
  rw [exprs, exprs, valueDecls_withoutParens]
  induction m.valueDecls with
  | nil => rfl
  | cons decl rest inductionHypothesis =>
      rw [List.map_cons, List.flatMap_cons, List.flatMap_cons, Expr.unwrapped_append,
        inductionHypothesis, ValueDecl.withoutParens, Expr.subexprs_withoutParens]

end Module

/-! ### Nothing is left -/

namespace Node

def isParen : Node → Bool
  | .expr tree => tree.isParen
  | .pattern tree => tree.isParen
  | .type _ => false

def withoutParens : Node → Node
  | .expr tree => .expr tree.withoutParens
  | .pattern tree => .pattern tree.withoutParens
  | .type tree => .type tree

theorem isParen_withoutParens (node : Node) : node.withoutParens.isParen = false := by
  cases node with
  | expr tree => exact tree.isParen_withoutParens
  | pattern tree => exact tree.isParen_withoutParens
  | type tree => rfl

/-- Removing parentheses starts at what stands between the outer ones. -/
theorem exists_unwrapped (node : Node) :
    ∃ core : Node, core.isParen = false ∧ node.withoutParens = core.withoutParens := by
  cases node with
  | expr tree =>
      refine ⟨.expr tree.unparen, tree.isParen_unparen, ?_⟩
      rw [withoutParens, withoutParens, tree.withoutParens_unparen]
  | pattern tree =>
      refine ⟨.pattern tree.unparen, tree.isParen_unparen, ?_⟩
      rw [withoutParens, withoutParens, tree.withoutParens_unparen]
  | type tree => exact ⟨.type tree, rfl, rfl⟩

theorem map_patterns (patterns : List Pattern) :
    (Pattern.withoutParensOfList patterns).map pattern = (patterns.map pattern).map withoutParens := by
  rw [Pattern.withoutParensOfList_eq_map, List.map_map, List.map_map]
  rfl

theorem map_exprs (exprs : List Expr) :
    (Expr.withoutParensOfList exprs).map expr = (exprs.map expr).map withoutParens := by
  rw [Expr.withoutParensOfList_eq_map, List.map_map, List.map_map]
  rfl

theorem map_fields (fields : List ExprField) :
    ((Expr.withoutParensOfFields fields).map fun field => expr field.value) =
      (fields.map fun field => expr field.value).map withoutParens := by
  rw [Expr.withoutParensOfFields_eq_map, List.map_map, List.map_map]
  rfl

theorem parts_valueDecl (decl : ValueDecl) :
    decl.withoutParens.parts = decl.parts.map withoutParens := by
  simp only [ValueDecl.parts, ValueDecl.withoutParens, map_patterns, List.map_append, List.map_map]
  rfl

theorem parts_letDecl (declaration : LetDecl) :
    declaration.withoutParens.parts = declaration.parts.map withoutParens := by
  cases declaration with
  | value decl => exact parts_valueDecl decl
  | destructure pattern body span => rfl

theorem parts_letDecls (declarations : List LetDecl) :
    (Expr.withoutParensOfLetDecls declarations).flatMap LetDecl.parts =
      (declarations.flatMap LetDecl.parts).map withoutParens := by
  rw [Expr.withoutParensOfLetDecls_eq_map, List.flatMap_map, List.map_flatMap]
  simp only [parts_letDecl]

theorem parts_branches (branches : List CaseBranch) :
    (Expr.withoutParensOfBranches branches).flatMap CaseBranch.parts =
      (branches.flatMap CaseBranch.parts).map withoutParens := by
  rw [Expr.withoutParensOfBranches_eq_map, List.flatMap_map, List.map_flatMap]
  rfl

theorem children_withoutParens {node : Node} (notParen : node.isParen = false) :
    node.withoutParens.children = node.children.map withoutParens := by
  cases node with
  | expr tree =>
      cases tree with
      | paren inner span => exact absurd notParen (by simp [isParen, Expr.isParen])
      | tuple items span | list items span => exact map_exprs items
      | record fields span | update target fields span => exact map_fields fields
      | call function args span => exact congrArg (_ :: ·) (map_exprs args)
      | lambda params body span =>
          simp only [withoutParens, Expr.withoutParens, children, map_patterns, List.map_append]
          rfl
      | caseOf scrutinee branches span => exact congrArg (_ :: ·) (parts_branches branches)
      | letIn declarations body span =>
          simp only [withoutParens, Expr.withoutParens, children, parts_letDecls, List.map_append]
          rfl
      | _ => rfl
  | pattern tree =>
      cases tree with
      | paren inner span => exact absurd notParen (by simp [isParen, Pattern.isParen])
      | tuple items span | list items span | ctor name items span => exact map_patterns items
      | _ => rfl
  | type tree =>
      cases tree <;> simp [withoutParens, children, Function.comp_def]

/-- Every node inside a tree without parentheses comes from removing those of another node. -/
theorem exists_of_contains {node inner : Node} (contains : node.withoutParens.Contains inner) :
    ∃ source : Node, inner = source.withoutParens := by
  induction contains with
  | refl => exact ⟨node, rfl⟩
  | @tail parent child _ isChild inductionHypothesis =>
      obtain ⟨source, rfl⟩ := inductionHypothesis
      obtain ⟨core, notParen, sameTree⟩ := source.exists_unwrapped
      rw [sameTree, children_withoutParens notParen, List.mem_map] at isChild
      obtain ⟨sourceChild, _, rfl⟩ := isChild
      exact ⟨sourceChild, rfl⟩

end Node

/-- No parentheses stand anywhere in a value of the module. -/
def Module.ParenFree (m : Module) : Prop :=
  ∀ decl ∈ m.valueDecls, ∀ part ∈ decl.parts, ∀ inner, part.Contains inner → inner.isParen = false

theorem Module.withoutParens_parenFree (m : Module) : m.withoutParens.ParenFree := by
  intro decl isDecl part isPart inner contains
  rw [valueDecls_withoutParens, List.mem_map] at isDecl
  obtain ⟨source, _, rfl⟩ := isDecl
  rw [Node.parts_valueDecl, List.mem_map] at isPart
  obtain ⟨sourcePart, _, rfl⟩ := isPart
  obtain ⟨sourceInner, rfl⟩ := Node.exists_of_contains contains
  exact sourceInner.isParen_withoutParens

end ElmDiagnostics
