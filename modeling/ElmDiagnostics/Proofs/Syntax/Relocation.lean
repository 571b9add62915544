import ElmDiagnostics.Usage.Reference
import Mathlib.Data.List.Basic

/-!
Contract: what a tree keeps when its text is laid out differently.

Owns: patterns, types, expressions and modules with every span moved; and that the binders,
references, types, expressions and declarations of the moved tree are those of the tree, in order.

Does not own: the rules that look at trees.

A move is any function on spans. It need not keep their order, nor keep different spans apart.
-/

set_option autoImplicit false

namespace ElmDiagnostics

variable (move : Span → Span)

/-! ### Tokens -/

def Name.relocate (name : Name) : Name := { name with span := move name.span }

def QualifiedName.relocate (name : QualifiedName) : QualifiedName where
  qualifier := name.qualifier.map (Name.relocate move)
  base := name.base.relocate move
  span := move name.span

def Literal.relocate (token : Literal) : Literal := { token with span := move token.span }

theorem QualifiedName.qualifierText_relocate (name : QualifiedName) :
    (name.relocate move).qualifierText = name.qualifierText := by
  rw [qualifierText, relocate, Option.map_map]
  rfl

/-! ### Patterns -/

namespace Pattern

mutual

/-- The pattern with every span moved. -/
def relocate : Pattern → Pattern
  | .wildcard span => .wildcard (move span)
  | .var name => .var (name.relocate move)
  | .literal token => .literal (token.relocate move)
  | .unit span => .unit (move span)
  | .paren inner span => .paren inner.relocate (move span)
  | .tuple items span => .tuple (relocateOfList items) (move span)
  | .list items span => .list (relocateOfList items) (move span)
  | .cons head tail span => .cons head.relocate tail.relocate (move span)
  | .record fields span => .record (fields.map (Name.relocate move)) (move span)
  | .ctor name args span => .ctor (name.relocate move) (relocateOfList args) (move span)
  | .named inner name span => .named inner.relocate (name.relocate move) (move span)

def relocateOfList : List Pattern → List Pattern
  | [] => []
  | pattern :: rest => pattern.relocate :: relocateOfList rest

end

theorem unparen_relocate (pattern : Pattern) :
    (pattern.relocate move).unparen = pattern.unparen.relocate move := by
  induction pattern using unparen.induct with
  | case1 inner span inductionHypothesis => exact inductionHypothesis
  | case2 pattern notParen =>
      cases pattern with
      | paren inner span => exact absurd rfl (notParen inner span)
      | _ => rfl

mutual

theorem binders_relocate : ∀ pattern : Pattern,
    (pattern.relocate move).binders = pattern.binders.map (Name.relocate move)
  | .wildcard _ | .var _ | .literal _ | .unit _ | .record _ _ => rfl
  | .paren inner _ => by rw [relocate, binders, binders, binders_relocate inner]
  | .tuple items _ | .list items _ | .ctor _ items _ => by
      rw [relocate, binders, binders, bindersOfList_relocate items]
  | .cons head tail _ => by
      rw [relocate, binders, binders, binders_relocate head, binders_relocate tail,
        List.map_append]
  | .named inner _ _ => by
      rw [relocate, binders, binders, binders_relocate inner, List.map_append]
      rfl

theorem bindersOfList_relocate : ∀ patterns : List Pattern,
    bindersOfList (relocateOfList move patterns) =
      (bindersOfList patterns).map (Name.relocate move)
  | [] => rfl
  | pattern :: rest => by
      rw [relocateOfList, bindersOfList, bindersOfList, binders_relocate pattern,
        bindersOfList_relocate rest, List.map_append]

end

mutual

theorem references_relocate : ∀ pattern : Pattern,
    (pattern.relocate move).references = pattern.references
  | .wildcard _ | .var _ | .literal _ | .unit _ | .record _ _ => rfl
  | .paren inner _ | .named inner _ _ => by
      rw [relocate, references, references, references_relocate inner]
  | .tuple items _ | .list items _ => by
      rw [relocate, references, references, referencesOfList_relocate items]
  | .cons head tail _ => by
      rw [relocate, references, references, references_relocate head, references_relocate tail]
  | .ctor name args _ => by
      rw [relocate, references, references, QualifiedName.qualifierText_relocate,
        referencesOfList_relocate args]
      rfl

theorem referencesOfList_relocate : ∀ patterns : List Pattern,
    referencesOfList (relocateOfList move patterns) = referencesOfList patterns
  | [] => rfl
  | pattern :: rest => by
      rw [relocateOfList, referencesOfList, referencesOfList, references_relocate pattern,
        referencesOfList_relocate rest]

end

end Pattern

/-! ### Types -/

namespace TypeExpr

mutual

/-- The type with every span moved. -/
def relocate : TypeExpr → TypeExpr
  | .var name => .var (name.relocate move)
  | .unit span => .unit (move span)
  | .ref name args span => .ref (name.relocate move) (relocateOfList args) (move span)
  | .function domain codomain span => .function domain.relocate codomain.relocate (move span)
  | .tuple items span => .tuple (relocateOfList items) (move span)
  | .record base fields span =>
      .record (base.map (Name.relocate move)) (relocateOfFields fields) (move span)

def relocateOfList : List TypeExpr → List TypeExpr
  | [] => []
  | type :: rest => type.relocate :: relocateOfList rest

def relocateOfFields : List TypeField → List TypeField
  | [] => []
  | ⟨name, type, span⟩ :: rest =>
      ⟨name.relocate move, type.relocate, move span⟩ :: relocateOfFields rest

end

theorem relocateOfList_eq_map (types : List TypeExpr) :
    relocateOfList move types = types.map (relocate move) := by
  induction types with
  | nil => rfl
  | cons type rest inductionHypothesis =>
      rw [relocateOfList, inductionHypothesis, List.map_cons]

theorem span_relocate (type : TypeExpr) : (type.relocate move).span = move type.span := by
  cases type <;> rfl

theorem isClosedRecord_relocate (type : TypeExpr) :
    (type.relocate move).isClosedRecord = type.isClosedRecord := by
  cases type with
  | record base fields span => cases base <;> rfl
  | _ => rfl

theorem isSingleFieldRecord_relocate (type : TypeExpr) :
    (type.relocate move).isSingleFieldRecord = type.isSingleFieldRecord := by
  cases type with
  | record base fields span =>
      cases base with
      | some name => rfl
      | none =>
          match fields with
          | [] | [⟨_, _, _⟩] | ⟨_, _, _⟩ :: ⟨_, _, _⟩ :: _ => rfl
  | _ => rfl

mutual

theorem subtypes_relocate : ∀ type : TypeExpr,
    (type.relocate move).subtypes = type.subtypes.map (relocate move)
  | .var _ | .unit _ => rfl
  | .ref _ args _ => by
      rw [relocate, subtypes, subtypes, subtypesOfList_relocate args, List.map_cons, relocate]
  | .function domain codomain _ => by
      rw [relocate, subtypes, subtypes, subtypes_relocate domain, subtypes_relocate codomain,
        List.map_cons, List.map_append, relocate]
  | .tuple items _ => by
      rw [relocate, subtypes, subtypes, subtypesOfList_relocate items, List.map_cons, relocate]
  | .record _ fields _ => by
      rw [relocate, subtypes, subtypes, subtypesOfFields_relocate fields, List.map_cons, relocate]

theorem subtypesOfList_relocate : ∀ types : List TypeExpr,
    subtypesOfList (relocateOfList move types) = (subtypesOfList types).map (relocate move)
  | [] => rfl
  | type :: rest => by
      rw [relocateOfList, subtypesOfList, subtypesOfList, subtypes_relocate type,
        subtypesOfList_relocate rest, List.map_append]

theorem subtypesOfFields_relocate : ∀ fields : List TypeField,
    subtypesOfFields (relocateOfFields move fields) = (subtypesOfFields fields).map (relocate move)
  | [] => rfl
  | ⟨_, type, _⟩ :: rest => by
      rw [relocateOfFields, subtypesOfFields, subtypesOfFields, subtypes_relocate type,
        subtypesOfFields_relocate rest, List.map_append]

end

mutual

theorem references_relocate : ∀ type : TypeExpr, (type.relocate move).references = type.references
  | .var _ | .unit _ => rfl
  | .ref name args _ => by
      rw [relocate, references, references, QualifiedName.qualifierText_relocate,
        referencesOfList_relocate args]
      rfl
  | .function domain codomain _ => by
      rw [relocate, references, references, references_relocate domain,
        references_relocate codomain]
  | .tuple items _ => by rw [relocate, references, references, referencesOfList_relocate items]
  | .record _ fields _ => by
      rw [relocate, references, references, referencesOfFields_relocate fields]

theorem referencesOfList_relocate : ∀ types : List TypeExpr,
    referencesOfList (relocateOfList move types) = referencesOfList types
  | [] => rfl
  | type :: rest => by
      rw [relocateOfList, referencesOfList, referencesOfList, references_relocate type,
        referencesOfList_relocate rest]

theorem referencesOfFields_relocate : ∀ fields : List TypeField,
    referencesOfFields (relocateOfFields move fields) = referencesOfFields fields
  | [] => rfl
  | ⟨_, type, _⟩ :: rest => by
      rw [relocateOfFields, referencesOfFields, referencesOfFields, references_relocate type,
        referencesOfFields_relocate rest]

end

end TypeExpr

def Signature.relocate (signature : Signature) : Signature where
  name := signature.name.relocate move
  type := signature.type.relocate move
  span := move signature.span

theorem Signature.references?_relocate (signature? : Option Signature) :
    references? (signature?.map (relocate move)) = references? signature? := by
  cases signature? with
  | none => rfl
  | some signature => exact signature.type.references_relocate move

theorem Signature.type_relocate (signature? : Option Signature) :
    (signature?.map (relocate move)).map (·.type) =
      (signature?.map (·.type)).map (TypeExpr.relocate move) := by
  rw [Option.map_map, Option.map_map]
  rfl

/-! ### Expressions -/

namespace Expr

mutual

/-- The expression with every span moved. -/
def relocate : Expr → Expr
  | .var name => .var (name.relocate move)
  | .ctor name => .ctor (name.relocate move)
  | .operator symbol => .operator (symbol.relocate move)
  | .accessor field => .accessor (field.relocate move)
  | .literal token => .literal (token.relocate move)
  | .unit span => .unit (move span)
  | .negate inner span => .negate inner.relocate (move span)
  | .paren inner span => .paren inner.relocate (move span)
  | .tuple items span => .tuple (relocateOfList items) (move span)
  | .list items span => .list (relocateOfList items) (move span)
  | .record fields span => .record (relocateOfFields fields) (move span)
  | .update target fields span =>
      .update (target.relocate move) (relocateOfFields fields) (move span)
  | .access base field span => .access base.relocate (field.relocate move) (move span)
  | .call function args span => .call function.relocate (relocateOfList args) (move span)
  | .binary symbol left right span =>
      .binary (symbol.relocate move) left.relocate right.relocate (move span)
  | .lambda params body span =>
      .lambda (Pattern.relocateOfList move params) body.relocate (move span)
  | .ifThenElse condition thenBranch elseBranch span =>
      .ifThenElse condition.relocate thenBranch.relocate elseBranch.relocate (move span)
  | .caseOf scrutinee branches span =>
      .caseOf scrutinee.relocate (relocateOfBranches branches) (move span)
  | .letIn declarations body span =>
      .letIn (relocateOfLetDecls declarations) body.relocate (move span)

def relocateOfList : List Expr → List Expr
  | [] => []
  | expr :: rest => expr.relocate :: relocateOfList rest

def relocateOfFields : List ExprField → List ExprField
  | [] => []
  | ⟨name, value, span⟩ :: rest =>
      ⟨name.relocate move, value.relocate, move span⟩ :: relocateOfFields rest

def relocateOfBranches : List CaseBranch → List CaseBranch
  | [] => []
  | ⟨pattern, body, span⟩ :: rest =>
      ⟨pattern.relocate move, body.relocate, move span⟩ :: relocateOfBranches rest

def relocateOfLetDecls : List LetDecl → List LetDecl
  | [] => []
  | .value ⟨signature, name, params, body, span⟩ :: rest =>
      .value ⟨signature.map (Signature.relocate move), name.relocate move,
        Pattern.relocateOfList move params, body.relocate, move span⟩ :: relocateOfLetDecls rest
  | .destructure pattern body span :: rest =>
      .destructure (pattern.relocate move) body.relocate (move span) :: relocateOfLetDecls rest

end

theorem relocateOfList_eq_map (exprs : List Expr) :
    relocateOfList move exprs = exprs.map (relocate move) := by
  induction exprs with
  | nil => rfl
  | cons expr rest inductionHypothesis =>
      rw [relocateOfList, inductionHypothesis, List.map_cons]

theorem span_relocate (expr : Expr) : (expr.relocate move).span = move expr.span := by
  cases expr <;> rfl

theorem unparen_relocate (expr : Expr) :
    (expr.relocate move).unparen = expr.unparen.relocate move := by
  induction expr using unparen.induct with
  | case1 inner span inductionHypothesis => exact inductionHypothesis
  | case2 expr notParen =>
      cases expr with
      | paren inner span => exact absurd rfl (notParen inner span)
      | _ => rfl

theorem isListLiteral_relocate (expr : Expr) :
    (expr.relocate move).isListLiteral = expr.isListLiteral := by
  rw [isListLiteral, unparen_relocate, isListLiteral]
  cases expr.unparen <;> rfl

mutual

theorem references_relocate : ∀ expr : Expr, (expr.relocate move).references = expr.references
  | .operator _ | .accessor _ | .literal _ | .unit _ => rfl
  | .var name | .ctor name => by
      rw [relocate, references, references, QualifiedName.qualifierText_relocate]
      rfl
  | .negate inner _ | .paren inner _ | .access inner _ _ => by
      rw [relocate, references, references, references_relocate inner]
  | .tuple items _ | .list items _ => by
      rw [relocate, references, references, referencesOfList_relocate items]
  | .record fields _ => by
      rw [relocate, references, references, referencesOfFields_relocate fields]
  | .update _ fields _ => by
      rw [relocate, references, references, referencesOfFields_relocate fields]
      rfl
  | .call function args _ => by
      rw [relocate, references, references, references_relocate function,
        referencesOfList_relocate args]
  | .binary _ left right _ => by
      rw [relocate, references, references, references_relocate left, references_relocate right]
      rfl
  | .lambda params body _ => by
      rw [relocate, references, references, Pattern.referencesOfList_relocate,
        references_relocate body]
  | .ifThenElse condition thenBranch elseBranch _ => by
      rw [relocate, references, references, references_relocate condition,
        references_relocate thenBranch, references_relocate elseBranch]
  | .caseOf scrutinee branches _ => by
      rw [relocate, references, references, references_relocate scrutinee,
        referencesOfBranches_relocate branches]
  | .letIn declarations body _ => by
      rw [relocate, references, references, referencesOfLetDecls_relocate declarations,
        references_relocate body]

theorem referencesOfList_relocate : ∀ exprs : List Expr,
    referencesOfList (relocateOfList move exprs) = referencesOfList exprs
  | [] => rfl
  | expr :: rest => by
      rw [relocateOfList, referencesOfList, referencesOfList, references_relocate expr,
        referencesOfList_relocate rest]

theorem referencesOfFields_relocate : ∀ fields : List ExprField,
    referencesOfFields (relocateOfFields move fields) = referencesOfFields fields
  | [] => rfl
  | ⟨_, value, _⟩ :: rest => by
      rw [relocateOfFields, referencesOfFields, referencesOfFields, references_relocate value,
        referencesOfFields_relocate rest]

theorem referencesOfBranches_relocate : ∀ branches : List CaseBranch,
    referencesOfBranches (relocateOfBranches move branches) = referencesOfBranches branches
  | [] => rfl
  | ⟨pattern, body, _⟩ :: rest => by
      rw [relocateOfBranches, referencesOfBranches, referencesOfBranches,
        pattern.references_relocate, references_relocate body, referencesOfBranches_relocate rest]

theorem referencesOfLetDecls_relocate : ∀ declarations : List LetDecl,
    referencesOfLetDecls (relocateOfLetDecls move declarations) =
      referencesOfLetDecls declarations
  | [] => rfl
  | .value ⟨signature, _, params, body, _⟩ :: rest => by
      rw [relocateOfLetDecls, referencesOfLetDecls, referencesOfLetDecls,
        Signature.references?_relocate, Pattern.referencesOfList_relocate,
        references_relocate body, referencesOfLetDecls_relocate rest]
  | .destructure pattern body _ :: rest => by
      rw [relocateOfLetDecls, referencesOfLetDecls, referencesOfLetDecls,
        pattern.references_relocate, references_relocate body, referencesOfLetDecls_relocate rest]

end

theorem localValues_relocate (expr : Expr) :
    (expr.relocate move).localValues = expr.localValues := by
  rw [localValues, references_relocate, localValues]

mutual

theorem subexprs_relocate : ∀ expr : Expr,
    (expr.relocate move).subexprs = expr.subexprs.map (relocate move)
  | .var _ | .ctor _ | .operator _ | .accessor _ | .literal _ | .unit _ => rfl
  | .negate inner _ | .paren inner _ | .access inner _ _ | .lambda _ inner _ => by
      rw [relocate, subexprs, subexprs, subexprs_relocate inner, List.map_cons, relocate]
  | .tuple items _ | .list items _ => by
      rw [relocate, subexprs, subexprs, subexprsOfList_relocate items, List.map_cons, relocate]
  | .record fields _ | .update _ fields _ => by
      rw [relocate, subexprs, subexprs, subexprsOfFields_relocate fields, List.map_cons, relocate]
  | .call function args _ => by
      rw [relocate, subexprs, subexprs, subexprs_relocate function, subexprsOfList_relocate args,
        List.map_cons, List.map_append, relocate]
  | .binary _ left right _ => by
      rw [relocate, subexprs, subexprs, subexprs_relocate left, subexprs_relocate right,
        List.map_cons, List.map_append, relocate]
  | .ifThenElse condition thenBranch elseBranch _ => by
      rw [relocate, subexprs, subexprs, subexprs_relocate condition, subexprs_relocate thenBranch,
        subexprs_relocate elseBranch, List.map_cons, List.map_append, List.map_append, relocate]
  | .caseOf scrutinee branches _ => by
      rw [relocate, subexprs, subexprs, subexprs_relocate scrutinee,
        subexprsOfBranches_relocate branches, List.map_cons, List.map_append, relocate]
  | .letIn declarations body _ => by
      rw [relocate, subexprs, subexprs, subexprsOfLetDecls_relocate declarations,
        subexprs_relocate body, List.map_cons, List.map_append, relocate]

theorem subexprsOfList_relocate : ∀ exprs : List Expr,
    subexprsOfList (relocateOfList move exprs) = (subexprsOfList exprs).map (relocate move)
  | [] => rfl
  | expr :: rest => by
      rw [relocateOfList, subexprsOfList, subexprsOfList, subexprs_relocate expr,
        subexprsOfList_relocate rest, List.map_append]

theorem subexprsOfFields_relocate : ∀ fields : List ExprField,
    subexprsOfFields (relocateOfFields move fields) = (subexprsOfFields fields).map (relocate move)
  | [] => rfl
  | ⟨_, value, _⟩ :: rest => by
      rw [relocateOfFields, subexprsOfFields, subexprsOfFields, subexprs_relocate value,
        subexprsOfFields_relocate rest, List.map_append]

theorem subexprsOfBranches_relocate : ∀ branches : List CaseBranch,
    subexprsOfBranches (relocateOfBranches move branches) =
      (subexprsOfBranches branches).map (relocate move)
  | [] => rfl
  | ⟨_, body, _⟩ :: rest => by
      rw [relocateOfBranches, subexprsOfBranches, subexprsOfBranches, subexprs_relocate body,
        subexprsOfBranches_relocate rest, List.map_append]

theorem subexprsOfLetDecls_relocate : ∀ declarations : List LetDecl,
    subexprsOfLetDecls (relocateOfLetDecls move declarations) =
      (subexprsOfLetDecls declarations).map (relocate move)
  | [] => rfl
  | .value ⟨_, _, _, body, _⟩ :: rest | .destructure _ body _ :: rest => by
      rw [relocateOfLetDecls, subexprsOfLetDecls, subexprsOfLetDecls, subexprs_relocate body,
        subexprsOfLetDecls_relocate rest, List.map_append]

end

end Expr

def ValueDecl.relocate (decl : ValueDecl) : ValueDecl where
  signature := decl.signature.map (Signature.relocate move)
  name := decl.name.relocate move
  params := Pattern.relocateOfList move decl.params
  body := decl.body.relocate move
  span := move decl.span

def CaseBranch.relocate (branch : CaseBranch) : CaseBranch where
  pattern := branch.pattern.relocate move
  body := branch.body.relocate move
  span := move branch.span

def LetDecl.relocate : LetDecl → LetDecl
  | .value decl => .value (decl.relocate move)
  | .destructure pattern body span =>
      .destructure (pattern.relocate move) (body.relocate move) (move span)

namespace Expr

theorem relocateOfBranches_eq_map (branches : List CaseBranch) :
    relocateOfBranches move branches = branches.map (CaseBranch.relocate move) := by
  induction branches with
  | nil => rfl
  | cons branch rest inductionHypothesis =>
      obtain ⟨pattern, body, span⟩ := branch
      rw [relocateOfBranches, inductionHypothesis, List.map_cons, CaseBranch.relocate]

theorem relocateOfLetDecls_eq_map (declarations : List LetDecl) :
    relocateOfLetDecls move declarations = declarations.map (LetDecl.relocate move) := by
  induction declarations with
  | nil => rfl
  | cons declaration rest inductionHypothesis =>
      cases declaration with
      | value decl =>
          obtain ⟨signature, name, params, body, span⟩ := decl
          rw [relocateOfLetDecls, inductionHypothesis, List.map_cons, LetDecl.relocate,
            ValueDecl.relocate]
      | destructure pattern body span =>
          rw [relocateOfLetDecls, inductionHypothesis, List.map_cons, LetDecl.relocate]

end Expr

/-! ### Exposing lists and imports -/

def ExposedItem.relocate : ExposedItem → ExposedItem
  | .value name => .value (name.relocate move)
  | .operator symbol => .operator (symbol.relocate move)
  | .type name constructors span =>
      .type (name.relocate move) (constructors.map move) (move span)

namespace Exposing

def relocate : Exposing → Exposing
  | .all span => .all (move span)
  | .explicit items span => .explicit (items.map (ExposedItem.relocate move)) (move span)

theorem isAll_relocate (exposing : Exposing) : (exposing.relocate move).isAll = exposing.isAll := by
  cases exposing <;> rfl

theorem items_relocate (exposing : Exposing) :
    (exposing.relocate move).items = exposing.items.map (ExposedItem.relocate move) := by
  cases exposing <;> rfl

end Exposing

def Import.relocate (decl : Import) : Import where
  name := decl.name.relocate move
  rename := decl.rename.map (Name.relocate move)
  exposing := decl.exposing.map (Exposing.relocate move)
  span := move decl.span

/-! ### Declarations -/

def CtorDecl.relocate (decl : CtorDecl) : CtorDecl where
  name := decl.name.relocate move
  args := TypeExpr.relocateOfList move decl.args
  span := move decl.span

def PortDecl.relocate (decl : PortDecl) : PortDecl where
  name := decl.name.relocate move
  type := decl.type.relocate move
  span := move decl.span

/-- The declaration with every span moved. -/
def Declaration.relocate : Declaration → Declaration
  | .value decl => .value (decl.relocate move)
  | .typeAlias ⟨name, params, type, span⟩ =>
      .typeAlias ⟨name.relocate move, params.map (Name.relocate move), type.relocate move,
        move span⟩
  | .customType ⟨name, params, ctors, span⟩ =>
      .customType ⟨name.relocate move, params.map (Name.relocate move),
        ctors.map (CtorDecl.relocate move), move span⟩
  | .port decl => .port (decl.relocate move)
  | .operator ⟨symbol, function, span⟩ =>
      .operator ⟨symbol.relocate move, function.relocate move, move span⟩

/-! ### Modules -/

def ModuleHeader.relocate (header : ModuleHeader) : ModuleHeader where
  kind := header.kind
  name := header.name.relocate move
  exposing := header.exposing.relocate move
  span := move header.span

namespace Module

/-- The module with every span moved. -/
def relocate (m : Module) : Module where
  header := m.header.map (ModuleHeader.relocate move)
  imports := m.imports.map (Import.relocate move)
  declarations := m.declarations.map (Declaration.relocate move)
  span := move m.span

theorem exposesAll_relocate (m : Module) : (m.relocate move).exposesAll = m.exposesAll := by
  unfold exposesAll relocate
  cases m.header with
  | none => rfl
  | some header => exact header.exposing.isAll_relocate move

theorem exposedItems_relocate (m : Module) :
    (m.relocate move).exposedItems = m.exposedItems.map (ExposedItem.relocate move) := by
  unfold exposedItems relocate
  cases m.header with
  | none => rfl
  | some header => exact header.exposing.items_relocate move

theorem kind_relocate (m : Module) : (m.relocate move).kind = m.kind := by
  unfold kind relocate
  cases m.header <;> rfl

theorem valueDecls_relocate (m : Module) :
    (m.relocate move).valueDecls = m.valueDecls.map (ValueDecl.relocate move) := by
  unfold valueDecls relocate
  rw [List.filterMap_map, List.map_filterMap]
  congr 1
  funext declaration
  cases declaration <;> rfl

theorem portDecls_relocate (m : Module) :
    (m.relocate move).portDecls = m.portDecls.map (PortDecl.relocate move) := by
  unfold portDecls relocate
  rw [List.filterMap_map, List.map_filterMap]
  congr 1
  funext declaration
  cases declaration <;> rfl

theorem exprs_relocate (m : Module) :
    (m.relocate move).exprs = m.exprs.map (Expr.relocate move) := by
  unfold exprs
  rw [valueDecls_relocate, List.flatMap_map, List.map_flatMap]
  congr 1
  funext decl
  exact decl.body.subexprs_relocate move

/-- What is gathered from declarations that a move does not change. -/
theorem flatMap_declarations_relocate {β : Type} (gather : Declaration → List β)
    (kept : ∀ declaration : Declaration, gather (declaration.relocate move) = gather declaration)
    (m : Module) :
    (m.relocate move).declarations.flatMap gather = m.declarations.flatMap gather := by
  rw [relocate, List.flatMap_map]
  simp only [kept]

end Module

end ElmDiagnostics
