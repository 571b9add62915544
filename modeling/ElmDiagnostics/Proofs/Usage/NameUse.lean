import ElmDiagnostics.Proofs.Usage.ReferenceGraph

/-!
Contract: a name counts as used exactly if it occurs in the module.

Owns: the nodes that stand in a module; occurrence of qualifiers, values, types and operators, said
of these nodes one form of use at a time; and that the usage analysis answers exactly these
questions.

Does not own: what a name stands for, and whether the declaration it occurs in is alive.

The analysis keeps one list of references for the whole module and asks four questions about it.
Here every question is answered by a node of the tree that bears the name.
-/

set_option autoImplicit false

namespace ElmDiagnostics

/-! ### Names in a module -/

/-- The trees a declaration is made of. -/
def Declaration.parts : Declaration → List Node
  | .value decl => decl.parts
  | .typeAlias decl => [.type decl.type]
  | .customType decl => decl.ctors.flatMap fun ctor => ctor.args.map .type
  | .port decl => [.type decl.type]
  | .operator _ => []

namespace Module

/-- The node stands in a declaration of the module, at any depth. -/
def Holds (m : Module) (node : Node) : Prop :=
  ∃ declaration ∈ m.declarations, ∃ part ∈ declaration.parts, part.Contains node

/-- The type is written in full in the module: as the signature of a value, at the top level or
inside `let`, as an alias, an argument of a constructor or the type of a port. -/
inductive WritesType (m : Module) : TypeExpr → Prop where
  | signature {decl : ValueDecl} {signature : Signature} (declared : .value decl ∈ m.declarations)
      (isSigned : decl.signature = some signature) : WritesType m signature.type
  | letSignature {declarations : List LetDecl} {body : Expr} {span : Span} {decl : ValueDecl}
      {signature : Signature} (holds : m.Holds (.expr (.letIn declarations body span)))
      (declared : .value decl ∈ declarations) (isSigned : decl.signature = some signature) :
      WritesType m signature.type
  | typeAlias {decl : TypeAliasDecl} (declared : .typeAlias decl ∈ m.declarations) :
      WritesType m decl.type
  | ctorArg {decl : CustomTypeDecl} {ctor : CtorDecl} {arg : TypeExpr}
      (declared : .customType decl ∈ m.declarations) (isCtor : ctor ∈ decl.ctors)
      (isArg : arg ∈ ctor.args) : WritesType m arg
  | port {decl : PortDecl} (declared : .port decl ∈ m.declarations) : WritesType m decl.type

/-- The name is written as a variable or as a constructor, in an expression or in a pattern. -/
inductive NamesValue (m : Module) (name : QualifiedName) : Prop where
  | variable (holds : m.Holds (.expr (.var name)))
  | ctor (holds : m.Holds (.expr (.ctor name)))
  | pattern {args : List Pattern} {span : Span} (holds : m.Holds (.pattern (.ctor name args span)))

/-- The name is written as a type, or as part of one. -/
def NamesType (m : Module) (name : QualifiedName) : Prop :=
  ∃ written args span, m.WritesType written ∧
    (Node.type written).Contains (.type (.ref name args span))

/-- Some name is written with the qualifier. -/
def QualifierOccurs (m : Module) (qualifier : String) : Prop :=
  ∃ name : QualifiedName, name.qualifierText = some qualifier ∧
    (m.NamesValue name ∨ m.NamesType name)

/-- The text is written without a qualifier as a value or constructor, as the target of a record
update, or as the function that an operator stands for. -/
inductive ValueOccurs (m : Module) (text : String) : Prop where
  | name {name : QualifiedName} (unqualified : name.qualifierText = none)
      (spelled : name.base.text = text) (written : m.NamesValue name)
  | update {target : Name} {fields : List ExprField} {span : Span} (spelled : target.text = text)
      (holds : m.Holds (.expr (.update target fields span)))
  | function {decl : OperatorDecl} (spelled : decl.function.text = text)
      (declared : .operator decl ∈ m.declarations)

/-- The text is written without a qualifier as a type. -/
def TypeOccurs (m : Module) (text : String) : Prop :=
  ∃ name : QualifiedName, name.qualifierText = none ∧ name.base.text = text ∧ m.NamesType name

/-- The operator is applied between two operands or referred to in parentheses. -/
inductive OperatorOccurs (m : Module) (text : String) : Prop where
  | applied {symbol : Name} {left right : Expr} {span : Span} (spelled : symbol.text = text)
      (holds : m.Holds (.expr (.binary symbol left right span)))
  | referred {symbol : Name} (spelled : symbol.text = text)
      (holds : m.Holds (.expr (.operator symbol)))

theorem Holds.of_contains {m : Module} {outer inner : Node} (holds : m.Holds outer)
    (contains : outer.Contains inner) : m.Holds inner := by
  obtain ⟨declaration, declared, part, isPart, containsOuter⟩ := holds
  exact ⟨declaration, declared, part, isPart, containsOuter.trans contains⟩

theorem holds_part {m : Module} {declaration : Declaration}
    (declared : declaration ∈ m.declarations) {part : Node} (isPart : part ∈ declaration.parts) : m.Holds part :=
  ⟨declaration, declared, part, isPart, .refl⟩

end Module

/-! ### Types stand in written types -/

theorem ValueDecl.type_mem_parts_iff (decl : ValueDecl) (type : TypeExpr) :
    .type type ∈ decl.parts ↔
      ∃ signature, decl.signature = some signature ∧ signature.type = type := by
  simp [parts]

/-- Only the signatures of a `let` bring types into an expression. -/
theorem Node.exists_signature_of_type_mem_children {expr : Expr} {type : TypeExpr}
    (isChild : .type type ∈ (Node.expr expr).children) :
    ∃ declarations body span decl signature, expr = .letIn declarations body span ∧
      .value decl ∈ declarations ∧ decl.signature = some signature ∧ signature.type = type := by
  cases expr with
  | letIn declarations body span =>
      rcases List.mem_append.mp isChild with isLetPart | isBody
      · obtain ⟨declaration, declared, isPart⟩ := List.mem_flatMap.mp isLetPart
        cases declaration with
        | value decl =>
            obtain ⟨signature, isSigned, itsType⟩ := (decl.type_mem_parts_iff type).mp isPart
            exact ⟨declarations, body, span, decl, signature, rfl, declared, isSigned, itsType⟩
        | destructure pattern body span => simp [LetDecl.parts] at isPart
      · simp at isBody
  | caseOf scrutinee branches span => simp [children, CaseBranch.parts] at isChild
  | _ => simp [children] at isChild

theorem Node.pattern_of_mem_children {pattern : Pattern} {node : Node}
    (isChild : node ∈ (Node.pattern pattern).children) : ∃ inner, node = .pattern inner := by
  cases pattern with
  | wildcard _ | var _ | literal _ | unit _ | record _ _ => simp [children] at isChild
  | paren inner _ | named inner _ _ => exact ⟨inner, by simpa [children] using isChild⟩
  | tuple items _ | list items _ | ctor _ items _ =>
      obtain ⟨item, _, rfl⟩ := List.mem_map.mp isChild
      exact ⟨item, rfl⟩
  | cons head tail _ =>
      simp only [children, List.mem_cons, List.not_mem_nil, or_false] at isChild
      rcases isChild with rfl | rfl
      · exact ⟨head, rfl⟩
      · exact ⟨tail, rfl⟩

namespace Module

theorem WritesType.of_part {m : Module} {declaration : Declaration}
    (declared : declaration ∈ m.declarations) {type : TypeExpr}
    (isPart : .type type ∈ declaration.parts) : m.WritesType type := by
  cases declaration with
  | value decl =>
      obtain ⟨signature, isSigned, rfl⟩ := (decl.type_mem_parts_iff type).mp isPart
      exact .signature declared isSigned
  | typeAlias decl =>
      obtain rfl : type = decl.type := by simpa [Declaration.parts] using isPart
      exact .typeAlias declared
  | customType decl =>
      obtain ⟨ctor, isCtor, isCtorPart⟩ := List.mem_flatMap.mp isPart
      have isArg : type ∈ ctor.args := by simpa using isCtorPart
      exact .ctorArg declared isCtor isArg
  | port decl =>
      obtain rfl : type = decl.type := by simpa [Declaration.parts] using isPart
      exact .port declared
  | operator decl => exact absurd isPart List.not_mem_nil

theorem WritesType.holds {m : Module} {type : TypeExpr} (written : m.WritesType type) :
    m.Holds (.type type) := by
  cases written with
  | signature declared isSigned =>
      exact holds_part declared ((ValueDecl.type_mem_parts_iff _ _).mpr ⟨_, isSigned, rfl⟩)
  | letSignature holds declared isSigned =>
      refine holds.of_contains (.single (List.mem_append_left _ (List.mem_flatMap.mpr ?_)))
      exact ⟨_, declared, (ValueDecl.type_mem_parts_iff _ _).mpr ⟨_, isSigned, rfl⟩⟩
  | typeAlias declared => exact holds_part declared (List.mem_singleton_self _)
  | ctorArg declared isCtor isArg =>
      exact holds_part declared (List.mem_flatMap.mpr ⟨_, isCtor, List.mem_map_of_mem isArg⟩)
  | port declared => exact holds_part declared (List.mem_singleton_self _)

/-- Every type that stands in a module stands in one that is written in full. -/
theorem exists_writesType_of_holds {m : Module} {node : Node} (holds : m.Holds node)
    {type : TypeExpr} (isType : node = .type type) :
    ∃ written, m.WritesType written ∧ (Node.type written).Contains node := by
  obtain ⟨declaration, declared, part, isPart, contains⟩ := holds
  -- From the part of the declaration inwards, until the way enters a type.
  induction contains generalizing type with
  | refl =>
      subst isType
      exact ⟨type, .of_part declared isPart, .refl⟩
  | @tail parent child toParent isChild inductionHypothesis =>
      subst isType
      cases parent with
      | expr expr =>
          obtain ⟨declarations, body, span, decl, signature, rfl, isLetDecl, isSigned, rfl⟩ :=
            Node.exists_signature_of_type_mem_children isChild
          have holdsLet := (holds_part declared isPart).of_contains toParent
          exact ⟨signature.type, .letSignature holdsLet isLetDecl isSigned, .refl⟩
      | pattern pattern =>
          obtain ⟨inner, impossible⟩ := Node.pattern_of_mem_children isChild
          exact absurd impossible (by simp)
      | type outer =>
          obtain ⟨written, isWritten, containsOuter⟩ := inductionHypothesis rfl
          exact ⟨written, isWritten, containsOuter.tail isChild⟩

theorem namesType_iff (m : Module) (name : QualifiedName) :
    m.NamesType name ↔ ∃ args span, m.Holds (.type (.ref name args span)) := by
  constructor
  · rintro ⟨written, args, span, isWritten, contains⟩
    exact ⟨args, span, isWritten.holds.of_contains contains⟩
  · rintro ⟨args, span, holds⟩
    obtain ⟨written, isWritten, contains⟩ := exists_writesType_of_holds holds rfl
    exact ⟨written, args, span, isWritten, contains⟩

end Module

/-! ### The references of a module -/

/-- A declaration refers to what its parts mention; that of an operator, to its function. -/
theorem Declaration.mem_references_iff (declaration : Declaration) (reference : Reference) :
    reference ∈ declaration.references ↔
      (∃ part ∈ declaration.parts, part.Mentions reference) ∨
        ∃ decl, declaration = .operator decl ∧ reference = .value none decl.function.text := by
  cases declaration with
  | value decl => simp [references, parts, ValueDecl.mem_references_iff]
  | typeAlias decl => simp [references, parts, TypeExpr.mem_references_iff]
  | customType decl =>
      simp only [references, parts, List.mem_flatMap, CtorDecl.mem_references_iff, List.mem_map,
        reduceCtorEq, false_and, exists_false, or_false]
      constructor
      · rintro ⟨ctor, isCtor, arg, isArg, mentions⟩
        exact ⟨_, ⟨ctor, isCtor, arg, isArg, rfl⟩, mentions⟩
      · rintro ⟨_, ⟨ctor, isCtor, arg, isArg, rfl⟩, mentions⟩
        exact ⟨ctor, isCtor, arg, isArg, mentions⟩
  | port decl => simp [references, parts, TypeExpr.mem_references_iff]
  | operator decl => simp [references, parts]

/-- The references of a module are the names at the nodes that it holds and the functions of its
operators. -/
theorem Module.mem_references_iff (m : Module) (reference : Reference) :
    reference ∈ m.references ↔
      (∃ node, m.Holds node ∧ reference ∈ node.ownReferences) ∨
        ∃ decl, .operator decl ∈ m.declarations ∧ reference = .value none decl.function.text := by
  simp only [references, List.mem_flatMap, Declaration.mem_references_iff]
  constructor
  · rintro ⟨declaration, declared, ⟨part, isPart, node, contains, own⟩ | ⟨decl, rfl, isFunction⟩⟩
    · exact .inl ⟨node, ⟨declaration, declared, part, isPart, contains⟩, own⟩
    · exact .inr ⟨decl, declared, isFunction⟩
  · rintro (⟨node, ⟨declaration, declared, part, isPart, contains⟩, own⟩ |
      ⟨decl, declared, isFunction⟩)
    · exact ⟨declaration, declared, .inl ⟨part, isPart, node, contains, own⟩⟩
    · exact ⟨_, declared, .inr ⟨decl, rfl, isFunction⟩⟩

/-! ### Which nodes bear which names -/

namespace Node

theorem value_mem_ownReferences_iff (node : Node) (qualifier : Option String) (text : String) :
    .value qualifier text ∈ node.ownReferences ↔
      (∃ name, node = .expr (.var name) ∧ name.qualifierText = qualifier ∧ name.base.text = text) ∨
        ∃ target fields span, node = .expr (.update target fields span) ∧ qualifier = none ∧
          target.text = text := by
  unfold ownReferences
  split <;> simp_all [eq_comm]

theorem ctor_mem_ownReferences_iff (node : Node) (qualifier : Option String) (text : String) :
    .ctor qualifier text ∈ node.ownReferences ↔
      ∃ name, (node = .expr (.ctor name) ∨ ∃ args span, node = .pattern (.ctor name args span)) ∧
        name.qualifierText = qualifier ∧ name.base.text = text := by
  unfold ownReferences
  split <;> simp_all [eq_comm]

theorem type_mem_ownReferences_iff (node : Node) (qualifier : Option String) (text : String) :
    .type qualifier text ∈ node.ownReferences ↔
      ∃ name args span, node = .type (.ref name args span) ∧ name.qualifierText = qualifier ∧
        name.base.text = text := by
  unfold ownReferences
  split <;> simp_all [eq_comm]

theorem operator_mem_ownReferences_iff (node : Node) (text : String) :
    .operator text ∈ node.ownReferences ↔
      (∃ symbol left right span, node = .expr (.binary symbol left right span) ∧
        symbol.text = text) ∨
        ∃ symbol, node = .expr (.operator symbol) ∧ symbol.text = text := by
  unfold ownReferences
  split <;> simp_all [eq_comm]

end Node

namespace Module

theorem value_mem_references_iff (m : Module) (qualifier : Option String) (text : String) :
    .value qualifier text ∈ m.references ↔
      (∃ name, m.Holds (.expr (.var name)) ∧ name.qualifierText = qualifier ∧
        name.base.text = text) ∨
      qualifier = none ∧
        ((∃ target fields span, m.Holds (.expr (.update target fields span)) ∧
          target.text = text) ∨
        ∃ decl, .operator decl ∈ m.declarations ∧ decl.function.text = text) := by
  simp only [mem_references_iff, Node.value_mem_ownReferences_iff, Reference.value.injEq]
  constructor
  · rintro (⟨_, holds, ⟨name, rfl, qualified, spelled⟩ |
      ⟨target, fields, span, rfl, plain, spelled⟩⟩ | ⟨decl, declared, plain, spelled⟩)
    · exact .inl ⟨name, holds, qualified, spelled⟩
    · exact .inr ⟨plain, .inl ⟨target, fields, span, holds, spelled⟩⟩
    · exact .inr ⟨plain, .inr ⟨decl, declared, spelled.symm⟩⟩
  · rintro (⟨name, holds, qualified, spelled⟩ |
      ⟨plain, ⟨target, fields, span, holds, spelled⟩ | ⟨decl, declared, spelled⟩⟩)
    · exact .inl ⟨_, holds, .inl ⟨name, rfl, qualified, spelled⟩⟩
    · exact .inl ⟨_, holds, .inr ⟨target, fields, span, rfl, plain, spelled⟩⟩
    · exact .inr ⟨decl, declared, plain, spelled.symm⟩

theorem ctor_mem_references_iff (m : Module) (qualifier : Option String) (text : String) :
    .ctor qualifier text ∈ m.references ↔
      ∃ name, (m.Holds (.expr (.ctor name)) ∨
        ∃ args span, m.Holds (.pattern (.ctor name args span))) ∧
        name.qualifierText = qualifier ∧ name.base.text = text := by
  simp only [mem_references_iff, Node.ctor_mem_ownReferences_iff, reduceCtorEq, and_false,
    exists_false, or_false]
  constructor
  · rintro ⟨_, holds, name, rfl | ⟨args, span, rfl⟩, isName⟩
    · exact ⟨name, .inl holds, isName⟩
    · exact ⟨name, .inr ⟨args, span, holds⟩, isName⟩
  · rintro ⟨name, holds | ⟨args, span, holds⟩, isName⟩
    · exact ⟨_, holds, name, .inl rfl, isName⟩
    · exact ⟨_, holds, name, .inr ⟨args, span, rfl⟩, isName⟩

theorem type_mem_references_iff (m : Module) (qualifier : Option String) (text : String) :
    .type qualifier text ∈ m.references ↔
      ∃ name, m.NamesType name ∧ name.qualifierText = qualifier ∧ name.base.text = text := by
  simp only [mem_references_iff, Node.type_mem_ownReferences_iff, reduceCtorEq, and_false,
    exists_false, or_false, namesType_iff]
  constructor
  · rintro ⟨_, holds, name, args, span, rfl, isName⟩
    exact ⟨name, ⟨args, span, holds⟩, isName⟩
  · rintro ⟨name, ⟨args, span, holds⟩, isName⟩
    exact ⟨_, holds, name, args, span, rfl, isName⟩

theorem operator_mem_references_iff (m : Module) (text : String) :
    .operator text ∈ m.references ↔ m.OperatorOccurs text := by
  simp only [mem_references_iff, Node.operator_mem_ownReferences_iff, reduceCtorEq, and_false,
    exists_false, or_false]
  constructor
  · rintro ⟨_, holds, ⟨symbol, left, right, span, rfl, spelled⟩ | ⟨symbol, rfl, spelled⟩⟩
    · exact .applied spelled holds
    · exact .referred spelled holds
  · rintro (⟨spelled, holds⟩ | ⟨spelled, holds⟩)
    · exact ⟨_, holds, .inl ⟨_, _, _, _, rfl, spelled⟩⟩
    · exact ⟨_, holds, .inr ⟨_, rfl, spelled⟩⟩

end Module

/-! ### The questions of the analysis -/

namespace Usage

theorem isQualifierUsed_iff (usage : Usage) (qualifier : String) :
    usage.isQualifierUsed qualifier = true ↔
      ∃ text, .value (some qualifier) text ∈ usage.references ∨
        .ctor (some qualifier) text ∈ usage.references ∨
        .type (some qualifier) text ∈ usage.references := by
  simp only [isQualifierUsed, List.any_eq_true, decide_eq_true_eq]
  constructor
  · rintro ⟨reference, isReference, qualified⟩
    cases reference with
    | value used text => exact ⟨text, .inl (qualified ▸ isReference)⟩
    | ctor used text => exact ⟨text, .inr (.inl (qualified ▸ isReference))⟩
    | type used text => exact ⟨text, .inr (.inr (qualified ▸ isReference))⟩
    | operator symbol => exact absurd qualified (by simp [Reference.qualifier?])
  · rintro ⟨text, isReference | isReference | isReference⟩
    · exact ⟨_, isReference, rfl⟩
    · exact ⟨_, isReference, rfl⟩
    · exact ⟨_, isReference, rfl⟩

theorem isValueUsed_iff (usage : Usage) (text : String) :
    usage.isValueUsed text = true ↔
      .value none text ∈ usage.references ∨ .ctor none text ∈ usage.references := by
  simp only [isValueUsed, List.any_eq_true]
  constructor
  · rintro ⟨reference, isReference, uses⟩
    split at uses
    · exact .inl (of_decide_eq_true uses ▸ isReference)
    · exact .inr (of_decide_eq_true uses ▸ isReference)
    · exact absurd uses Bool.false_ne_true
  · rintro (isReference | isReference)
    · exact ⟨_, isReference, decide_eq_true rfl⟩
    · exact ⟨_, isReference, decide_eq_true rfl⟩

theorem isTypeUsed_iff (usage : Usage) (text : String) :
    usage.isTypeUsed text = true ↔ .type none text ∈ usage.references := by
  simp only [isTypeUsed, List.any_eq_true]
  constructor
  · rintro ⟨reference, isReference, uses⟩
    split at uses
    · exact of_decide_eq_true uses ▸ isReference
    · exact absurd uses Bool.false_ne_true
  · intro isReference
    exact ⟨_, isReference, decide_eq_true rfl⟩

theorem isOperatorUsed_iff (usage : Usage) (symbol : String) :
    usage.isOperatorUsed symbol = true ↔ .operator symbol ∈ usage.references := by
  simp only [isOperatorUsed, List.any_eq_true]
  constructor
  · rintro ⟨reference, isReference, uses⟩
    split at uses
    · exact of_decide_eq_true uses ▸ isReference
    · exact absurd uses Bool.false_ne_true
  · intro isReference
    exact ⟨_, isReference, decide_eq_true rfl⟩

/-! ### Use is occurrence -/

theorem isQualifierUsed_iff_occurs (m : Module) (qualifier : String) :
    (ofModule m).isQualifierUsed qualifier = true ↔ m.QualifierOccurs qualifier := by
  rw [isQualifierUsed_iff]
  simp only [ofModule, Module.value_mem_references_iff, Module.ctor_mem_references_iff,
    Module.type_mem_references_iff, reduceCtorEq, false_and, or_false]
  constructor
  · rintro ⟨text, ⟨name, holds, qualified, _⟩ |
      ⟨name, holds | ⟨args, span, holds⟩, qualified, _⟩ | ⟨name, isType, qualified, _⟩⟩
    · exact ⟨name, qualified, .inl (.variable holds)⟩
    · exact ⟨name, qualified, .inl (.ctor holds)⟩
    · exact ⟨name, qualified, .inl (.pattern holds)⟩
    · exact ⟨name, qualified, .inr isType⟩
  · rintro ⟨name, qualified, (holds | holds | holds) | isType⟩
    · exact ⟨_, .inl ⟨name, holds, qualified, rfl⟩⟩
    · exact ⟨_, .inr (.inl ⟨name, .inl holds, qualified, rfl⟩)⟩
    · exact ⟨_, .inr (.inl ⟨name, .inr ⟨_, _, holds⟩, qualified, rfl⟩)⟩
    · exact ⟨_, .inr (.inr ⟨name, isType, qualified, rfl⟩)⟩

theorem isValueUsed_iff_occurs (m : Module) (text : String) :
    (ofModule m).isValueUsed text = true ↔ m.ValueOccurs text := by
  rw [isValueUsed_iff]
  simp only [ofModule, Module.value_mem_references_iff, Module.ctor_mem_references_iff, true_and]
  constructor
  · rintro ((⟨name, holds, unqualified, spelled⟩ | ⟨target, fields, span, holds, spelled⟩ |
      ⟨decl, declared, spelled⟩) | ⟨name, holds | ⟨args, span, holds⟩, unqualified, spelled⟩)
    · exact .name unqualified spelled (.variable holds)
    · exact .update spelled holds
    · exact .function spelled declared
    · exact .name unqualified spelled (.ctor holds)
    · exact .name unqualified spelled (.pattern holds)
  · rintro (⟨unqualified, spelled, holds | holds | holds⟩ | ⟨spelled, holds⟩ | ⟨spelled, declared⟩)
    · exact .inl (.inl ⟨_, holds, unqualified, spelled⟩)
    · exact .inr ⟨_, .inl holds, unqualified, spelled⟩
    · exact .inr ⟨_, .inr ⟨_, _, holds⟩, unqualified, spelled⟩
    · exact .inl (.inr (.inl ⟨_, _, _, holds, spelled⟩))
    · exact .inl (.inr (.inr ⟨_, declared, spelled⟩))

theorem isTypeUsed_iff_occurs (m : Module) (text : String) :
    (ofModule m).isTypeUsed text = true ↔ m.TypeOccurs text := by
  rw [isTypeUsed_iff, ofModule, Module.type_mem_references_iff, Module.TypeOccurs]
  constructor
  · rintro ⟨name, isType, unqualified, spelled⟩
    exact ⟨name, unqualified, spelled, isType⟩
  · rintro ⟨name, unqualified, spelled, isType⟩
    exact ⟨name, isType, unqualified, spelled⟩

theorem isOperatorUsed_iff_occurs (m : Module) (symbol : String) :
    (ofModule m).isOperatorUsed symbol = true ↔ m.OperatorOccurs symbol := by
  rw [isOperatorUsed_iff, ofModule, Module.operator_mem_references_iff]

end Usage

end ElmDiagnostics
