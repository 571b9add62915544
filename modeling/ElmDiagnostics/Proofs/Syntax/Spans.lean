import ElmDiagnostics.Proofs.Syntax.Relocation

/-!
Contract: the spans of a tree.

Owns: the spans of all nodes and names of patterns, types, expressions and modules; and that a move
which leaves the spans of a tree alone leaves the tree alone, so that no span is missing here.
-/

set_option autoImplicit false

namespace ElmDiagnostics

/-! ### Moves that leave spans alone -/

/-- The move leaves these spans alone. -/
def Fixes (move : Span → Span) (spans : List Span) : Prop := ∀ span ∈ spans, move span = span

variable {move : Span → Span}

theorem fixes_cons_iff {span : Span} {rest : List Span} :
    Fixes move (span :: rest) ↔ move span = span ∧ Fixes move rest := List.forall_mem_cons

theorem fixes_append_iff {first second : List Span} :
    Fixes move (first ++ second) ↔ Fixes move first ∧ Fixes move second :=
  List.forall_mem_append

theorem Fixes.map_eq_self {α : Type} {items : List α} {relocate : α → α} {spansOf : α → List Span}
    (fixed : Fixes move (items.flatMap spansOf))
    (each : ∀ item, Fixes move (spansOf item) → relocate item = item) :
    items.map relocate = items := by
  have same : ∀ item ∈ items, relocate item = id item := by
    intro item isItem
    refine each item fun span isSpan => fixed span ?_
    exact List.mem_flatMap.mpr ⟨item, isItem, isSpan⟩
  rw [List.map_congr_left same, List.map_id]

theorem Fixes.optionMap_eq_self {α : Type} {item? : Option α} {relocate : α → α}
    {spansOf : α → List Span} (fixed : Fixes move (item?.toList.flatMap spansOf))
    (each : ∀ item, Fixes move (spansOf item) → relocate item = item) :
    item?.map relocate = item? := by
  cases item? with
  | none => rfl
  | some item =>
      rw [Option.toList_some, List.flatMap_singleton] at fixed
      exact congrArg some (each item fixed)

/-! ### Tokens -/

def Name.spans (name : Name) : List Span := [name.span]

theorem Name.relocate_eq_self {name : Name} (fixed : move name.span = name.span) :
    name.relocate move = name := by
  rw [relocate, fixed]

theorem Name.relocate_eq_self_of_fixes (name : Name) (fixed : Fixes move name.spans) :
    name.relocate move = name :=
  relocate_eq_self (fixes_cons_iff.mp fixed).1

theorem Literal.relocate_eq_self {token : Literal} (fixed : move token.span = token.span) :
    token.relocate move = token := by
  rw [relocate, fixed]

def QualifiedName.spans (name : QualifiedName) : List Span :=
  name.span :: name.base.span :: name.qualifier.toList.flatMap Name.spans

theorem QualifiedName.relocate_eq_self {name : QualifiedName} (fixed : Fixes move name.spans) :
    name.relocate move = name := by
  obtain ⟨own, inside⟩ := fixes_cons_iff.mp fixed
  obtain ⟨atBase, atQualifier⟩ := fixes_cons_iff.mp inside
  rw [relocate, own, Name.relocate_eq_self atBase,
    atQualifier.optionMap_eq_self Name.relocate_eq_self_of_fixes]

/-! ### Patterns -/

namespace Pattern

mutual

/-- The spans of a pattern: its own, those of its names and those of the patterns inside it. -/
def spans : Pattern → List Span
  | .wildcard span | .unit span => [span]
  | .var name => [name.span]
  | .literal token => [token.span]
  | .paren inner span => span :: inner.spans
  | .tuple items span | .list items span => span :: spansOfList items
  | .cons head tail span => span :: (head.spans ++ tail.spans)
  | .record fields span => span :: fields.flatMap Name.spans
  | .ctor name args span => span :: (name.spans ++ spansOfList args)
  | .named inner name span => span :: name.span :: inner.spans

def spansOfList : List Pattern → List Span
  | [] => []
  | pattern :: rest => pattern.spans ++ spansOfList rest

end

mutual

theorem relocate_eq_self : ∀ {pattern : Pattern}, Fixes move pattern.spans →
    pattern.relocate move = pattern
  | .wildcard span, fixed | .unit span, fixed => by
      rw [relocate, (fixes_cons_iff.mp fixed).1]
  | .var name, fixed => by
      rw [relocate, Name.relocate_eq_self (fixes_cons_iff.mp fixed).1]
  | .literal token, fixed => by
      rw [relocate, Literal.relocate_eq_self (fixes_cons_iff.mp fixed).1]
  | .paren inner span, fixed => by
      obtain ⟨own, inside⟩ := fixes_cons_iff.mp fixed
      rw [relocate, own, relocate_eq_self inside]
  | .tuple items span, fixed | .list items span, fixed => by
      obtain ⟨own, inside⟩ := fixes_cons_iff.mp fixed
      rw [relocate, own, relocateOfList_eq_self inside]
  | .cons head tail span, fixed => by
      obtain ⟨own, inside⟩ := fixes_cons_iff.mp fixed
      obtain ⟨inHead, inTail⟩ := fixes_append_iff.mp inside
      rw [relocate, own, relocate_eq_self inHead, relocate_eq_self inTail]
  | .record fields span, fixed => by
      obtain ⟨own, inside⟩ := fixes_cons_iff.mp fixed
      rw [relocate, own, inside.map_eq_self Name.relocate_eq_self_of_fixes]
  | .ctor name args span, fixed => by
      obtain ⟨own, inside⟩ := fixes_cons_iff.mp fixed
      obtain ⟨inName, inArgs⟩ := fixes_append_iff.mp inside
      rw [relocate, own, QualifiedName.relocate_eq_self inName, relocateOfList_eq_self inArgs]
  | .named inner name span, fixed => by
      obtain ⟨own, inside⟩ := fixes_cons_iff.mp fixed
      obtain ⟨atName, inPattern⟩ := fixes_cons_iff.mp inside
      rw [relocate, own, Name.relocate_eq_self atName, relocate_eq_self inPattern]

theorem relocateOfList_eq_self : ∀ {patterns : List Pattern}, Fixes move (spansOfList patterns) →
    relocateOfList move patterns = patterns
  | [], _ => rfl
  | pattern :: rest, fixed => by
      obtain ⟨inFirst, inRest⟩ := fixes_append_iff.mp fixed
      rw [relocateOfList, relocate_eq_self inFirst, relocateOfList_eq_self inRest]

end

end Pattern

/-! ### Types -/

namespace TypeExpr

mutual

/-- The spans of a type: its own, those of its names and those of the types inside it. -/
def spans : TypeExpr → List Span
  | .var name => [name.span]
  | .unit span => [span]
  | .ref name args span => span :: (name.spans ++ spansOfList args)
  | .function domain codomain span => span :: (domain.spans ++ codomain.spans)
  | .tuple items span => span :: spansOfList items
  | .record base fields span => span :: (base.toList.flatMap Name.spans ++ spansOfFields fields)

def spansOfList : List TypeExpr → List Span
  | [] => []
  | type :: rest => type.spans ++ spansOfList rest

def spansOfFields : List TypeField → List Span
  | [] => []
  | ⟨name, type, span⟩ :: rest => span :: name.span :: (type.spans ++ spansOfFields rest)

end

mutual

theorem relocate_eq_self : ∀ {type : TypeExpr}, Fixes move type.spans → type.relocate move = type
  | .var name, fixed => by
      rw [relocate, Name.relocate_eq_self (fixes_cons_iff.mp fixed).1]
  | .unit span, fixed => by
      rw [relocate, (fixes_cons_iff.mp fixed).1]
  | .ref name args span, fixed => by
      obtain ⟨own, inside⟩ := fixes_cons_iff.mp fixed
      obtain ⟨inName, inArgs⟩ := fixes_append_iff.mp inside
      rw [relocate, own, QualifiedName.relocate_eq_self inName, relocateOfList_eq_self inArgs]
  | .function domain codomain span, fixed => by
      obtain ⟨own, inside⟩ := fixes_cons_iff.mp fixed
      obtain ⟨inDomain, inCodomain⟩ := fixes_append_iff.mp inside
      rw [relocate, own, relocate_eq_self inDomain, relocate_eq_self inCodomain]
  | .tuple items span, fixed => by
      obtain ⟨own, inside⟩ := fixes_cons_iff.mp fixed
      rw [relocate, own, relocateOfList_eq_self inside]
  | .record base fields span, fixed => by
      obtain ⟨own, inside⟩ := fixes_cons_iff.mp fixed
      obtain ⟨atBase, inFields⟩ := fixes_append_iff.mp inside
      rw [relocate, own, atBase.optionMap_eq_self Name.relocate_eq_self_of_fixes,
        relocateOfFields_eq_self inFields]

theorem relocateOfList_eq_self : ∀ {types : List TypeExpr}, Fixes move (spansOfList types) →
    relocateOfList move types = types
  | [], _ => rfl
  | type :: rest, fixed => by
      obtain ⟨inFirst, inRest⟩ := fixes_append_iff.mp fixed
      rw [relocateOfList, relocate_eq_self inFirst, relocateOfList_eq_self inRest]

theorem relocateOfFields_eq_self : ∀ {fields : List TypeField}, Fixes move (spansOfFields fields) →
    relocateOfFields move fields = fields
  | [], _ => rfl
  | ⟨name, type, span⟩ :: rest, fixed => by
      obtain ⟨own, inside⟩ := fixes_cons_iff.mp fixed
      obtain ⟨atName, inType⟩ := fixes_cons_iff.mp inside
      obtain ⟨inFirst, inRest⟩ := fixes_append_iff.mp inType
      rw [relocateOfFields, own, Name.relocate_eq_self atName, relocate_eq_self inFirst,
        relocateOfFields_eq_self inRest]

end

end TypeExpr

def Signature.spans (signature : Signature) : List Span :=
  signature.span :: signature.name.span :: signature.type.spans

theorem Signature.relocate_eq_self (signature : Signature) (fixed : Fixes move signature.spans) :
    signature.relocate move = signature := by
  obtain ⟨own, inside⟩ := fixes_cons_iff.mp fixed
  obtain ⟨atName, inType⟩ := fixes_cons_iff.mp inside
  rw [relocate, own, Name.relocate_eq_self atName, TypeExpr.relocate_eq_self inType]

/-! ### Expressions -/

namespace Expr

mutual

/-- The spans of an expression: its own, those of its names and those of all that is inside it. -/
def spans : Expr → List Span
  | .var name | .ctor name => name.spans
  | .operator name | .accessor name => [name.span]
  | .literal token => [token.span]
  | .unit span => [span]
  | .negate inner span | .paren inner span => span :: inner.spans
  | .tuple items span | .list items span => span :: spansOfList items
  | .record fields span => span :: spansOfFields fields
  | .update target fields span => span :: target.span :: spansOfFields fields
  | .access base field span => span :: field.span :: base.spans
  | .call function args span => span :: (function.spans ++ spansOfList args)
  | .binary symbol left right span => span :: symbol.span :: (left.spans ++ right.spans)
  | .lambda params body span => span :: (Pattern.spansOfList params ++ body.spans)
  | .ifThenElse condition thenBranch elseBranch span =>
      span :: (condition.spans ++ (thenBranch.spans ++ elseBranch.spans))
  | .caseOf scrutinee branches span => span :: (scrutinee.spans ++ spansOfBranches branches)
  | .letIn declarations body span => span :: (spansOfLetDecls declarations ++ body.spans)

def spansOfList : List Expr → List Span
  | [] => []
  | expr :: rest => expr.spans ++ spansOfList rest

def spansOfFields : List ExprField → List Span
  | [] => []
  | ⟨name, value, span⟩ :: rest => span :: name.span :: (value.spans ++ spansOfFields rest)

def spansOfBranches : List CaseBranch → List Span
  | [] => []
  | ⟨pattern, body, span⟩ :: rest =>
      span :: (pattern.spans ++ (body.spans ++ spansOfBranches rest))

def spansOfLetDecls : List LetDecl → List Span
  | [] => []
  | .value ⟨signature, name, params, body, span⟩ :: rest =>
      span :: name.span :: (signature.toList.flatMap Signature.spans ++
        (Pattern.spansOfList params ++ (body.spans ++ spansOfLetDecls rest)))
  | .destructure pattern body span :: rest =>
      span :: (pattern.spans ++ (body.spans ++ spansOfLetDecls rest))

end

mutual

theorem relocate_eq_self : ∀ {expr : Expr}, Fixes move expr.spans → expr.relocate move = expr
  | .var name, fixed | .ctor name, fixed => by
      rw [relocate, QualifiedName.relocate_eq_self fixed]
  | .operator name, fixed | .accessor name, fixed => by
      rw [relocate, Name.relocate_eq_self (fixes_cons_iff.mp fixed).1]
  | .literal token, fixed => by
      rw [relocate, Literal.relocate_eq_self (fixes_cons_iff.mp fixed).1]
  | .unit span, fixed => by
      rw [relocate, (fixes_cons_iff.mp fixed).1]
  | .negate inner span, fixed | .paren inner span, fixed => by
      obtain ⟨own, inside⟩ := fixes_cons_iff.mp fixed
      rw [relocate, own, relocate_eq_self inside]
  | .tuple items span, fixed | .list items span, fixed => by
      obtain ⟨own, inside⟩ := fixes_cons_iff.mp fixed
      rw [relocate, own, relocateOfList_eq_self inside]
  | .record fields span, fixed => by
      obtain ⟨own, inside⟩ := fixes_cons_iff.mp fixed
      rw [relocate, own, relocateOfFields_eq_self inside]
  | .update target fields span, fixed => by
      obtain ⟨own, inside⟩ := fixes_cons_iff.mp fixed
      obtain ⟨atTarget, inFields⟩ := fixes_cons_iff.mp inside
      rw [relocate, own, Name.relocate_eq_self atTarget, relocateOfFields_eq_self inFields]
  | .access base field span, fixed => by
      obtain ⟨own, inside⟩ := fixes_cons_iff.mp fixed
      obtain ⟨atField, inBase⟩ := fixes_cons_iff.mp inside
      rw [relocate, own, Name.relocate_eq_self atField, relocate_eq_self inBase]
  | .call function args span, fixed => by
      obtain ⟨own, inside⟩ := fixes_cons_iff.mp fixed
      obtain ⟨inFunction, inArgs⟩ := fixes_append_iff.mp inside
      rw [relocate, own, relocate_eq_self inFunction, relocateOfList_eq_self inArgs]
  | .binary symbol left right span, fixed => by
      obtain ⟨own, inside⟩ := fixes_cons_iff.mp fixed
      obtain ⟨atSymbol, inOperands⟩ := fixes_cons_iff.mp inside
      obtain ⟨inLeft, inRight⟩ := fixes_append_iff.mp inOperands
      rw [relocate, own, Name.relocate_eq_self atSymbol, relocate_eq_self inLeft,
        relocate_eq_self inRight]
  | .lambda params body span, fixed => by
      obtain ⟨own, inside⟩ := fixes_cons_iff.mp fixed
      obtain ⟨inParams, inBody⟩ := fixes_append_iff.mp inside
      rw [relocate, own, Pattern.relocateOfList_eq_self inParams, relocate_eq_self inBody]
  | .ifThenElse condition thenBranch elseBranch span, fixed => by
      obtain ⟨own, inside⟩ := fixes_cons_iff.mp fixed
      obtain ⟨inCondition, inBranches⟩ := fixes_append_iff.mp inside
      obtain ⟨inThen, inElse⟩ := fixes_append_iff.mp inBranches
      rw [relocate, own, relocate_eq_self inCondition, relocate_eq_self inThen,
        relocate_eq_self inElse]
  | .caseOf scrutinee branches span, fixed => by
      obtain ⟨own, inside⟩ := fixes_cons_iff.mp fixed
      obtain ⟨inScrutinee, inBranches⟩ := fixes_append_iff.mp inside
      rw [relocate, own, relocate_eq_self inScrutinee, relocateOfBranches_eq_self inBranches]
  | .letIn declarations body span, fixed => by
      obtain ⟨own, inside⟩ := fixes_cons_iff.mp fixed
      obtain ⟨inDeclarations, inBody⟩ := fixes_append_iff.mp inside
      rw [relocate, own, relocateOfLetDecls_eq_self inDeclarations, relocate_eq_self inBody]

theorem relocateOfList_eq_self : ∀ {exprs : List Expr}, Fixes move (spansOfList exprs) →
    relocateOfList move exprs = exprs
  | [], _ => rfl
  | expr :: rest, fixed => by
      obtain ⟨inFirst, inRest⟩ := fixes_append_iff.mp fixed
      rw [relocateOfList, relocate_eq_self inFirst, relocateOfList_eq_self inRest]

theorem relocateOfFields_eq_self : ∀ {fields : List ExprField}, Fixes move (spansOfFields fields) →
    relocateOfFields move fields = fields
  | [], _ => rfl
  | ⟨name, value, span⟩ :: rest, fixed => by
      obtain ⟨own, inside⟩ := fixes_cons_iff.mp fixed
      obtain ⟨atName, inValue⟩ := fixes_cons_iff.mp inside
      obtain ⟨inFirst, inRest⟩ := fixes_append_iff.mp inValue
      rw [relocateOfFields, own, Name.relocate_eq_self atName, relocate_eq_self inFirst,
        relocateOfFields_eq_self inRest]

theorem relocateOfBranches_eq_self : ∀ {branches : List CaseBranch},
    Fixes move (spansOfBranches branches) → relocateOfBranches move branches = branches
  | [], _ => rfl
  | ⟨pattern, body, span⟩ :: rest, fixed => by
      obtain ⟨own, inside⟩ := fixes_cons_iff.mp fixed
      obtain ⟨inPattern, afterPattern⟩ := fixes_append_iff.mp inside
      obtain ⟨inBody, inRest⟩ := fixes_append_iff.mp afterPattern
      rw [relocateOfBranches, own, Pattern.relocate_eq_self inPattern, relocate_eq_self inBody,
        relocateOfBranches_eq_self inRest]

theorem relocateOfLetDecls_eq_self : ∀ {declarations : List LetDecl},
    Fixes move (spansOfLetDecls declarations) →
      relocateOfLetDecls move declarations = declarations
  | [], _ => rfl
  | .value ⟨signature, name, params, body, span⟩ :: rest, fixed => by
      obtain ⟨own, inside⟩ := fixes_cons_iff.mp fixed
      obtain ⟨atName, afterName⟩ := fixes_cons_iff.mp inside
      obtain ⟨inSignature, afterSignature⟩ := fixes_append_iff.mp afterName
      obtain ⟨inParams, afterParams⟩ := fixes_append_iff.mp afterSignature
      obtain ⟨inBody, inRest⟩ := fixes_append_iff.mp afterParams
      rw [relocateOfLetDecls, own, Name.relocate_eq_self atName,
        inSignature.optionMap_eq_self Signature.relocate_eq_self,
        Pattern.relocateOfList_eq_self inParams, relocate_eq_self inBody,
        relocateOfLetDecls_eq_self inRest]
  | .destructure pattern body span :: rest, fixed => by
      obtain ⟨own, inside⟩ := fixes_cons_iff.mp fixed
      obtain ⟨inPattern, afterPattern⟩ := fixes_append_iff.mp inside
      obtain ⟨inBody, inRest⟩ := fixes_append_iff.mp afterPattern
      rw [relocateOfLetDecls, own, Pattern.relocate_eq_self inPattern, relocate_eq_self inBody,
        relocateOfLetDecls_eq_self inRest]

end

end Expr

/-! ### Exposing lists and imports -/

namespace ExposedItem

def spans : ExposedItem → List Span
  | .value name => [name.span]
  | .operator symbol => [symbol.span]
  | .type name constructors span => span :: name.span :: constructors.toList

theorem relocate_eq_self {item : ExposedItem}
    (fixed : Fixes move item.spans) : item.relocate move = item := by
  cases item with
  | value name => rw [relocate, Name.relocate_eq_self (fixes_cons_iff.mp fixed).1]
  | operator symbol => rw [relocate, Name.relocate_eq_self (fixes_cons_iff.mp fixed).1]
  | type name constructors span =>
      obtain ⟨own, inside⟩ := fixes_cons_iff.mp fixed
      obtain ⟨atName, atDots⟩ := fixes_cons_iff.mp inside
      have sameDots : constructors.map move = constructors := by
        cases constructors with
        | none => rfl
        | some dots => exact congrArg some (fixes_cons_iff.mp atDots).1
      rw [relocate, own, Name.relocate_eq_self atName, sameDots]

end ExposedItem

namespace Exposing

def spans : Exposing → List Span
  | .all span => [span]
  | .explicit items span => span :: items.flatMap ExposedItem.spans

theorem relocate_eq_self {exposing : Exposing}
    (fixed : Fixes move exposing.spans) : exposing.relocate move = exposing := by
  cases exposing with
  | all span => rw [relocate, (fixes_cons_iff.mp fixed).1]
  | explicit items span =>
      obtain ⟨own, inside⟩ := fixes_cons_iff.mp fixed
      rw [relocate, own, inside.map_eq_self fun _ => ExposedItem.relocate_eq_self]

end Exposing

namespace Import

def spans (decl : Import) : List Span :=
  decl.span :: decl.name.span ::
    (decl.rename.toList.flatMap Name.spans ++ decl.exposing.toList.flatMap Exposing.spans)

theorem relocate_eq_self {decl : Import} (fixed : Fixes move decl.spans) :
    decl.relocate move = decl := by
  obtain ⟨own, inside⟩ := fixes_cons_iff.mp fixed
  obtain ⟨atName, afterName⟩ := fixes_cons_iff.mp inside
  obtain ⟨atRename, inExposing⟩ := fixes_append_iff.mp afterName
  rw [relocate, own, Name.relocate_eq_self atName,
    atRename.optionMap_eq_self Name.relocate_eq_self_of_fixes,
    inExposing.optionMap_eq_self fun _ => Exposing.relocate_eq_self]

end Import

/-! ### Declarations -/

namespace ValueDecl

def spans (decl : ValueDecl) : List Span :=
  decl.span :: decl.name.span :: (decl.signature.toList.flatMap Signature.spans ++
    (Pattern.spansOfList decl.params ++ decl.body.spans))

theorem relocate_eq_self {decl : ValueDecl} (fixed : Fixes move decl.spans) :
    decl.relocate move = decl := by
  obtain ⟨signature, name, params, body, span⟩ := decl
  obtain ⟨own, inside⟩ := fixes_cons_iff.mp fixed
  obtain ⟨atName, afterName⟩ := fixes_cons_iff.mp inside
  obtain ⟨inSignature, afterSignature⟩ := fixes_append_iff.mp afterName
  obtain ⟨inParams, inBody⟩ := fixes_append_iff.mp afterSignature
  rw [relocate, own, Name.relocate_eq_self atName,
    inSignature.optionMap_eq_self Signature.relocate_eq_self,
    Pattern.relocateOfList_eq_self inParams, Expr.relocate_eq_self inBody]

end ValueDecl

namespace CtorDecl

def spans (decl : CtorDecl) : List Span :=
  decl.span :: decl.name.span :: TypeExpr.spansOfList decl.args

theorem relocate_eq_self {decl : CtorDecl} (fixed : Fixes move decl.spans) :
    decl.relocate move = decl := by
  obtain ⟨own, inside⟩ := fixes_cons_iff.mp fixed
  obtain ⟨atName, inArgs⟩ := fixes_cons_iff.mp inside
  rw [relocate, own, Name.relocate_eq_self atName, TypeExpr.relocateOfList_eq_self inArgs]

end CtorDecl

namespace Declaration

def spans : Declaration → List Span
  | .value decl => decl.spans
  | .typeAlias decl =>
      decl.span :: decl.name.span :: (decl.params.flatMap Name.spans ++ decl.type.spans)
  | .customType decl =>
      decl.span :: decl.name.span ::
        (decl.params.flatMap Name.spans ++ decl.ctors.flatMap CtorDecl.spans)
  | .port decl => decl.span :: decl.name.span :: decl.type.spans
  | .operator decl => [decl.span, decl.symbol.span, decl.function.span]

theorem relocate_eq_self {declaration : Declaration}
    (fixed : Fixes move declaration.spans) : declaration.relocate move = declaration := by
  cases declaration with
  | value decl => rw [relocate, ValueDecl.relocate_eq_self fixed]
  | typeAlias decl =>
      obtain ⟨own, inside⟩ := fixes_cons_iff.mp fixed
      obtain ⟨atName, afterName⟩ := fixes_cons_iff.mp inside
      obtain ⟨atParams, inType⟩ := fixes_append_iff.mp afterName
      rw [relocate, own, Name.relocate_eq_self atName,
        atParams.map_eq_self Name.relocate_eq_self_of_fixes, TypeExpr.relocate_eq_self inType]
  | customType decl =>
      obtain ⟨own, inside⟩ := fixes_cons_iff.mp fixed
      obtain ⟨atName, afterName⟩ := fixes_cons_iff.mp inside
      obtain ⟨atParams, inCtors⟩ := fixes_append_iff.mp afterName
      rw [relocate, own, Name.relocate_eq_self atName,
        atParams.map_eq_self Name.relocate_eq_self_of_fixes,
        inCtors.map_eq_self fun _ => CtorDecl.relocate_eq_self]
  | port decl =>
      obtain ⟨own, inside⟩ := fixes_cons_iff.mp fixed
      obtain ⟨atName, inType⟩ := fixes_cons_iff.mp inside
      rw [relocate, PortDecl.relocate, own, Name.relocate_eq_self atName,
        TypeExpr.relocate_eq_self inType]
  | operator decl =>
      obtain ⟨own, inside⟩ := fixes_cons_iff.mp fixed
      obtain ⟨atSymbol, afterSymbol⟩ := fixes_cons_iff.mp inside
      rw [relocate, own, Name.relocate_eq_self atSymbol,
        Name.relocate_eq_self (fixes_cons_iff.mp afterSymbol).1]

end Declaration

/-! ### Modules -/

def ModuleHeader.spans (header : ModuleHeader) : List Span :=
  header.span :: header.name.span :: header.exposing.spans

theorem ModuleHeader.relocate_eq_self {header : ModuleHeader}
    (fixed : Fixes move header.spans) : header.relocate move = header := by
  obtain ⟨own, inside⟩ := fixes_cons_iff.mp fixed
  obtain ⟨atName, inExposing⟩ := fixes_cons_iff.mp inside
  rw [relocate, own, Name.relocate_eq_self atName, Exposing.relocate_eq_self inExposing]

namespace Module

/-- The spans of all nodes and names of a module, the `(..)` behind an exposed type included. -/
def spans (m : Module) : List Span :=
  m.span :: (m.header.toList.flatMap ModuleHeader.spans ++
    (m.imports.flatMap Import.spans ++ m.declarations.flatMap Declaration.spans))

theorem relocate_eq_self {m : Module} (fixed : Fixes move m.spans) :
    m.relocate move = m := by
  obtain ⟨own, inside⟩ := fixes_cons_iff.mp fixed
  obtain ⟨inHeader, afterHeader⟩ := fixes_append_iff.mp inside
  obtain ⟨inImports, inDeclarations⟩ := fixes_append_iff.mp afterHeader
  rw [relocate, own, inHeader.optionMap_eq_self fun _ => ModuleHeader.relocate_eq_self,
    inImports.map_eq_self fun _ => Import.relocate_eq_self,
    inDeclarations.map_eq_self fun _ => Declaration.relocate_eq_self]

end Module

end ElmDiagnostics
