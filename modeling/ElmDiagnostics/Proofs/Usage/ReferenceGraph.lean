import ElmDiagnostics.Proofs.Usage.NameTable
import ElmDiagnostics.Proofs.Usage.Occurrence
import ElmDiagnostics.Proofs.Usage.Reachability
import ElmDiagnostics.Usage.ModuleUsage

/-!
Contract: the usage analysis computes reachability in the reference graph.

Owns: the reference graph and its roots, said of declarations and occurrences; that the edges and
roots which the analysis computes are these; and that the declarations it finds alive are exactly
those a path leads to from a root.

Does not own: what rules make of a declaration that is not alive.
-/

set_option autoImplicit false

namespace ElmDiagnostics

/-! ### The graph -/

/-- The node is one of the trees that define `id`: the signature, parameters and body of a value,
the type of an alias or port, the arguments of a constructor. The arguments of its constructors
also define a custom type. -/
inductive Declaration.Part : Declaration → DeclId → Node → Prop where
  | value (decl : ValueDecl) (node : Node) (isPart : node ∈ decl.parts) :
      Part (.value decl) (.value decl.name.text) node
  | port (decl : PortDecl) : Part (.port decl) (.port decl.name.text) (.type decl.type)
  | typeAlias (decl : TypeAliasDecl) :
      Part (.typeAlias decl) (.typeAlias decl.name.text) (.type decl.type)
  | customType (decl : CustomTypeDecl) (ctor : CtorDecl) (arg : TypeExpr)
      (isCtor : ctor ∈ decl.ctors) (isArg : arg ∈ ctor.args) :
      Part (.customType decl) (.customType decl.name.text) (.type arg)
  | ctor (decl : CustomTypeDecl) (ctor : CtorDecl) (arg : TypeExpr)
      (isCtor : ctor ∈ decl.ctors) (isArg : arg ∈ ctor.args) :
      Part (.customType decl) (.ctor ctor.name.text) (.type arg)

namespace Module

/-- Some declaration of `id` has the reference in it. -/
def DefinitionMentions (m : Module) (id : DeclId) (reference : Reference) : Prop :=
  ∃ declaration ∈ m.declarations, ∃ node, declaration.Part id node ∧ node.Mentions reference

/-- An edge: the source mentions the target, another declaration, or is a constructor of it. -/
inductive Refers (m : Module) : DeclId → DeclId → Prop where
  | mention {source target : DeclId} {reference : Reference}
      (mentions : m.DefinitionMentions source reference)
      (resolves : m.Resolves reference target) (different : target ≠ source) :
      Refers m source target
  | owner {decl : CustomTypeDecl} {ctor : CtorDecl}
      (declared : .customType decl ∈ m.declarations) (isCtor : ctor ∈ decl.ctors) :
      Refers m (.ctor ctor.name.text) (.customType decl.name.text)

/-- What is alive by itself. -/
inductive IsRoot (m : Module) : DeclId → Prop where
  | everything {space : NameSpace} {name : String} {id : DeclId} (exposesAll : m.exposesAll = true)
      (denotes : m.Denotes space name id) : IsRoot m id
  | exposedValue {name : Name} {id : DeclId} (exposed : .value name ∈ m.exposedItems)
      (denotes : m.Denotes .value name.text id) : IsRoot m id
  | exposedOperator {symbol : Name} {function : String} {id : DeclId}
      (exposed : .operator symbol ∈ m.exposedItems)
      (operator : m.OperatorDenotes symbol.text function)
      (denotes : m.Denotes .value function id) : IsRoot m id
  | exposedType {name : Name} {constructors : Option Span} {span : Span} {id : DeclId}
      (exposed : .type name constructors span ∈ m.exposedItems)
      (denotes : m.Denotes .type name.text id) : IsRoot m id
  | exposedCtor {name : Name} {dots span : Span} {decl : CustomTypeDecl} {ctor : CtorDecl}
      (exposed : .type name (some dots) span ∈ m.exposedItems)
      (declared : .customType decl ∈ m.declarations) (sameName : decl.name.text = name.text)
      (isCtor : ctor ∈ decl.ctors) : IsRoot m (.ctor ctor.name.text)
  | operatorFunction {symbol function : String} {id : DeclId}
      (operator : m.OperatorDenotes symbol function)
      (denotes : m.Denotes .value function id) : IsRoot m id
  | port {decl : PortDecl} (isPort : m.kind = .port) (declared : .port decl ∈ m.declarations) :
      IsRoot m (.port decl.name.text)
  | portType {decl : PortDecl} {reference : Reference} {id : DeclId} (isPort : m.kind = .port)
      (declared : .port decl ∈ m.declarations)
      (mentions : (Node.type decl.type).Mentions reference)
      (resolves : m.Resolves reference id) : IsRoot m id

/-- A path, of any length, leads to the declaration from a root. -/
def Alive (m : Module) (id : DeclId) : Prop :=
  ∃ root, m.IsRoot root ∧ Relation.ReflTransGen m.Refers root id

theorem IsRoot.alive {m : Module} {id : DeclId} (isRoot : m.IsRoot id) : m.Alive id :=
  ⟨id, isRoot, .refl⟩

theorem Alive.along {m : Module} {source target : DeclId} (alive : m.Alive source)
    (path : Relation.ReflTransGen m.Refers source target) : m.Alive target := by
  obtain ⟨root, isRoot, pathToSource⟩ := alive
  exact ⟨root, isRoot, pathToSource.trans path⟩

theorem Alive.refers {m : Module} {source target : DeclId} (alive : m.Alive source)
    (refers : m.Refers source target) : m.Alive target :=
  alive.along (.single refers)

/-- What an alive declaration mentions is alive, the declaration itself included. -/
theorem Alive.mentioned {m : Module} {source target : DeclId} {reference : Reference}
    (alive : m.Alive source) (mentions : m.DefinitionMentions source reference)
    (resolves : m.Resolves reference target) : m.Alive target := by
  by_cases isSource : target = source
  · exact isSource ▸ alive
  · exact alive.refers (.mention mentions resolves isSource)

/-! ### Operators that are declared more than once -/

/-- The value is named as the function of an operator, by a declaration that a later one of the same
operator may replace. -/
def IsOperatorFunction (m : Module) (id : DeclId) : Prop :=
  ∃ declaration ∈ m.declarations, ∃ symbol function,
    declaration.DefinesOperator symbol function ∧ m.Denotes .value function id

/-- All declarations of an operator name the same function. -/
def GivesOperatorsOneFunction (m : Module) : Prop :=
  ∀ first ∈ m.declarations, ∀ second ∈ m.declarations, ∀ symbol function other,
    first.DefinesOperator symbol function → second.DefinesOperator symbol other → function = other

theorem IsOperatorFunction.isRoot {m : Module} {id : DeclId} (isFunction : m.IsOperatorFunction id)
    (oneFunction : m.GivesOperatorsOneFunction) : m.IsRoot id := by
  obtain ⟨declaration, declared, symbol, function, defines, denotes⟩ := isFunction
  obtain ⟨last, isLast⟩ : ∃ last, m.OperatorDenotes symbol last :=
    exists_lastOf ⟨declaration, declared, function, defines⟩
  obtain ⟨other, otherDeclared, definesLast⟩ := isLast.introduced
  obtain rfl := oneFunction _ declared _ otherDeclared _ _ _ defines definesLast
  exact .operatorFunction isLast denotes

end Module

/-! ### Computed edges -/

theorem mem_edgesFrom_iff (source : DeclId) (targets : List DeclId) (edge : DeclId × DeclId) :
    edge ∈ edgesFrom source targets ↔
      edge.1 = source ∧ edge.2 ∈ targets ∧ edge.2 ≠ source := by
  obtain ⟨edgeSource, edgeTarget⟩ := edge
  simp only [edgesFrom, List.mem_map, List.mem_filter, decide_eq_true_eq, Prod.mk.injEq]
  constructor
  · rintro ⟨target, ⟨inTargets, different⟩, rfl, rfl⟩
    exact ⟨rfl, inTargets, different⟩
  · rintro ⟨rfl, inTargets, different⟩
    exact ⟨edgeTarget, ⟨inTargets, different⟩, rfl, rfl⟩

theorem ValueDecl.mem_references_iff (decl : ValueDecl) (reference : Reference) :
    reference ∈ decl.references ↔ ∃ node ∈ decl.parts, node.Mentions reference := by
  simp only [ValueDecl.references_eq_flatMap, List.mem_flatMap, Node.mem_references_iff_mentions]

theorem TypeExpr.mem_references_iff (type : TypeExpr) (reference : Reference) :
    reference ∈ type.references ↔ (Node.type type).Mentions reference :=
  Node.mem_references_iff_mentions (.type type) reference

theorem CtorDecl.mem_references_iff (decl : CtorDecl) (reference : Reference) :
    reference ∈ decl.references ↔ ∃ arg ∈ decl.args, (Node.type arg).Mentions reference := by
  simp only [references, TypeExpr.referencesOfList_eq_flatMap, List.mem_flatMap,
    TypeExpr.mem_references_iff]

theorem mem_resolved_iff (m : Module) (references : List Reference) (target : DeclId) :
    target ∈ references.filterMap (Scope.ofModule m).resolve ↔
      ∃ reference ∈ references, m.Resolves reference target := by
  simp only [List.mem_filterMap, Scope.resolve_eq_some_iff]

/-- The edges computed for one declaration: what its parts mention, and its constructors' type. -/
theorem Declaration.mem_edges_iff (m : Module) (declaration : Declaration)
    (source target : DeclId) :
    (source, target) ∈ declaration.edges (Scope.ofModule m) ↔
      (∃ node reference, declaration.Part source node ∧ node.Mentions reference ∧
        m.Resolves reference target ∧ target ≠ source) ∨
      ∃ decl ctor, declaration = .customType decl ∧ ctor ∈ decl.ctors ∧
        source = .ctor ctor.name.text ∧ target = .customType decl.name.text := by
  constructor
  · intro edge
    cases declaration with
    | value decl =>
        obtain ⟨rfl, inTargets, different⟩ := (mem_edgesFrom_iff _ _ _).mp edge
        obtain ⟨reference, mentioned, resolves⟩ := (mem_resolved_iff _ _ _).mp inTargets
        obtain ⟨node, isPart, mentions⟩ := (decl.mem_references_iff _).mp mentioned
        exact .inl ⟨node, reference, .value decl node isPart, mentions, resolves, different⟩
    | port decl =>
        obtain ⟨rfl, inTargets, different⟩ := (mem_edgesFrom_iff _ _ _).mp edge
        obtain ⟨reference, mentioned, resolves⟩ := (mem_resolved_iff _ _ _).mp inTargets
        have mentions := (decl.type.mem_references_iff _).mp mentioned
        exact .inl ⟨_, reference, .port decl, mentions, resolves, different⟩
    | typeAlias decl =>
        obtain ⟨rfl, inTargets, different⟩ := (mem_edgesFrom_iff _ _ _).mp edge
        obtain ⟨reference, mentioned, resolves⟩ := (mem_resolved_iff _ _ _).mp inTargets
        have mentions := (decl.type.mem_references_iff _).mp mentioned
        exact .inl ⟨_, reference, .typeAlias decl, mentions, resolves, different⟩
    | customType decl =>
        rcases List.mem_append.mp edge with ofType | ofCtors
        · obtain ⟨rfl, inTargets, different⟩ := (mem_edgesFrom_iff _ _ _).mp ofType
          obtain ⟨reference, mentioned, resolves⟩ := (mem_resolved_iff _ _ _).mp inTargets
          obtain ⟨ctor, isCtor, inCtor⟩ := List.mem_flatMap.mp mentioned
          obtain ⟨arg, isArg, mentions⟩ := (ctor.mem_references_iff _).mp inCtor
          exact .inl ⟨_, reference, .customType decl ctor arg isCtor isArg, mentions, resolves,
            different⟩
        · obtain ⟨ctor, isCtor, ofCtor⟩ := List.mem_flatMap.mp ofCtors
          obtain ⟨rfl, inTargets, different⟩ := (mem_edgesFrom_iff _ _ _).mp ofCtor
          rcases List.mem_cons.mp inTargets with rfl | inResolved
          · exact .inr ⟨decl, ctor, rfl, isCtor, rfl, rfl⟩
          · obtain ⟨reference, inCtor, resolves⟩ := (mem_resolved_iff _ _ _).mp inResolved
            obtain ⟨arg, isArg, mentions⟩ := (ctor.mem_references_iff _).mp inCtor
            exact .inl ⟨_, reference, .ctor decl ctor arg isCtor isArg, mentions, resolves,
              different⟩
    | operator decl => exact absurd edge (by simp [edges])
  · rintro (⟨node, reference, isPart, mentions, resolves, different⟩ |
      ⟨decl, ctor, rfl, isCtor, rfl, rfl⟩)
    · cases isPart with
      | value decl node isPart =>
          refine (mem_edgesFrom_iff _ _ _).mpr ⟨rfl, (mem_resolved_iff _ _ _).mpr ?_, different⟩
          exact ⟨reference, (decl.mem_references_iff _).mpr ⟨node, isPart, mentions⟩, resolves⟩
      | port decl =>
          refine (mem_edgesFrom_iff _ _ _).mpr ⟨rfl, (mem_resolved_iff _ _ _).mpr ?_, different⟩
          exact ⟨reference, (decl.type.mem_references_iff _).mpr mentions, resolves⟩
      | typeAlias decl =>
          refine (mem_edgesFrom_iff _ _ _).mpr ⟨rfl, (mem_resolved_iff _ _ _).mpr ?_, different⟩
          exact ⟨reference, (decl.type.mem_references_iff _).mpr mentions, resolves⟩
      | customType decl ctor arg isCtor isArg =>
          refine List.mem_append_left _ ((mem_edgesFrom_iff _ _ _).mpr ⟨rfl, ?_, different⟩)
          refine (mem_resolved_iff _ _ _).mpr ⟨reference, ?_, resolves⟩
          refine List.mem_flatMap.mpr ⟨ctor, isCtor, ?_⟩
          exact (ctor.mem_references_iff _).mpr ⟨arg, isArg, mentions⟩
      | ctor decl ctor arg isCtor isArg =>
          refine List.mem_append_right _ (List.mem_flatMap.mpr ⟨ctor, isCtor, ?_⟩)
          refine (mem_edgesFrom_iff _ _ _).mpr ⟨rfl, List.mem_cons_of_mem _ ?_, different⟩
          refine (mem_resolved_iff _ _ _).mpr ⟨reference, ?_, resolves⟩
          exact (ctor.mem_references_iff _).mpr ⟨arg, isArg, mentions⟩
    · refine List.mem_append_right _ (List.mem_flatMap.mpr ⟨ctor, isCtor, ?_⟩)
      exact (mem_edgesFrom_iff _ _ _).mpr ⟨rfl, List.mem_cons_self .., by simp⟩

/-- The computed edges are those of the reference graph. -/
theorem Module.mem_edges_iff (m : Module) (source target : DeclId) :
    (source, target) ∈ m.edges ↔ m.Refers source target := by
  simp only [edges, List.mem_flatMap, Declaration.mem_edges_iff]
  constructor
  · rintro ⟨declaration, declared, ⟨node, reference, isPart, mentions, resolves, different⟩ |
      ⟨decl, ctor, rfl, isCtor, rfl, rfl⟩⟩
    · exact .mention ⟨declaration, declared, node, isPart, mentions⟩ resolves different
    · exact .owner declared isCtor
  · intro refers
    cases refers with
    | mention mentions resolves different =>
        obtain ⟨declaration, declared, node, isPart, mentions⟩ := mentions
        exact ⟨declaration, declared, .inl ⟨node, _, isPart, mentions, resolves, different⟩⟩
    | owner declared isCtor => exact ⟨_, declared, .inr ⟨_, _, rfl, isCtor, rfl, rfl⟩⟩

/-! ### Computed roots -/

theorem Module.exposedItems_eq_nil {m : Module} (exposesAll : m.exposesAll = true) :
    m.exposedItems = [] := by
  unfold Module.exposesAll at exposesAll
  unfold exposedItems
  split at exposesAll
  · next header _ =>
      cases clause : header.exposing with
      | all span => simp_all only [Exposing.items]
      | explicit items span => simp [clause, Exposing.isAll] at exposesAll
  · simp_all only

theorem Module.mem_portDecls_iff (m : Module) (decl : PortDecl) :
    decl ∈ m.portDecls ↔ .port decl ∈ m.declarations := by
  rw [portDecls, List.mem_filterMap]
  constructor
  · rintro ⟨declaration, declared, isPort⟩
    cases declaration with
    | port found => exact Option.some.inj isPort ▸ declared
    | _ => exact absurd isPort (by simp)
  · intro declared
    exact ⟨.port decl, declared, rfl⟩

namespace Scope

theorem operator?_eq_some_iff (m : Module) (symbol : String) (id : DeclId) :
    (ofModule m).operator? symbol = some id ↔
      ∃ function, m.OperatorDenotes symbol function ∧ m.Denotes .value function id := by
  simp only [operator?, Option.bind_eq_some_iff, latest_operators_iff]
  simp only [← find?_eq_some_iff, find?]

theorem mem_operatorRoots_iff (m : Module) (id : DeclId) :
    id ∈ (ofModule m).operatorRoots ↔
      ∃ symbol function, m.OperatorDenotes symbol function ∧ m.Denotes .value function id := by
  simp only [operatorRoots, List.mem_filterMap, mem_latestValues_iff, latest_operators_iff]
  simp only [← find?_eq_some_iff, find?]
  constructor
  · rintro ⟨function, ⟨symbol, operator⟩, denotes⟩
    exact ⟨symbol, function, operator, denotes⟩
  · rintro ⟨symbol, function, operator, denotes⟩
    exact ⟨function, ⟨symbol, operator⟩, denotes⟩

theorem mem_ctorsOf_iff (m : Module) (typeName : String) (id : DeclId) :
    id ∈ (ofModule m).ctorsOf typeName ↔
      ∃ decl, .customType decl ∈ m.declarations ∧ decl.name.text = typeName ∧
        ∃ ctor ∈ decl.ctors, id = .ctor ctor.name.text := by
  simp only [ctorsOf, ofModule, List.mem_filterMap, List.mem_flatMap]
  constructor
  · rintro ⟨entry, ⟨declaration, declared, inEntries⟩, found⟩
    cases declaration with
    | customType decl =>
        obtain ⟨ctor, isCtor, rfl⟩ := List.mem_map.mp inEntries
        obtain ⟨sameName, same⟩ := Option.ite_none_right_eq_some.mp found
        exact ⟨decl, declared, sameName, ctor, isCtor, (Option.some.inj same).symm⟩
    | _ => exact absurd inEntries (by simp [ctorOfTypeEntries])
  · rintro ⟨decl, declared, rfl, ctor, isCtor, rfl⟩
    refine ⟨(decl.name.text, .ctor ctor.name.text), ⟨.customType decl, declared, ?_⟩, if_pos rfl⟩
    exact List.mem_map.mpr ⟨ctor, isCtor, rfl⟩

end Scope

theorem ExposedItem.isRoot_of_mem_roots {m : Module} {item : ExposedItem} {id : DeclId}
    (exposed : item ∈ m.exposedItems) (isRoot : id ∈ item.roots (Scope.ofModule m)) :
    m.IsRoot id := by
  cases item with
  | value name =>
      exact .exposedValue exposed
        ((Scope.find?_eq_some_iff m .value name.text id).mp (Option.mem_toList.mp isRoot))
  | operator symbol =>
      obtain ⟨function, operator, denotes⟩ :=
        (Scope.operator?_eq_some_iff m symbol.text id).mp (Option.mem_toList.mp isRoot)
      exact .exposedOperator exposed operator denotes
  | type name constructors span =>
      rcases List.mem_append.mp isRoot with isType | underType
      · exact .exposedType exposed
          ((Scope.find?_eq_some_iff m .type name.text id).mp (Option.mem_toList.mp isType))
      · cases constructors with
        | none => exact absurd underType (by simp)
        | some dots =>
            obtain ⟨decl, declared, sameName, ctor, isCtor, rfl⟩ :=
              (Scope.mem_ctorsOf_iff m name.text id).mp underType
            exact .exposedCtor exposed declared sameName isCtor

theorem Module.mem_latestValues_iff (m : Module) (id : DeclId) :
    id ∈ latestValues (Scope.ofModule m).values ++
        (latestValues (Scope.ofModule m).types ++ latestValues (Scope.ofModule m).ctors) ↔
      ∃ space name, m.Denotes space name id := by
  simp only [List.mem_append, ElmDiagnostics.mem_latestValues_iff, ← Scope.find?_eq_some_iff]
  constructor
  · rintro (⟨name, found⟩ | ⟨name, found⟩ | ⟨name, found⟩)
    · exact ⟨.value, name, found⟩
    · exact ⟨.type, name, found⟩
    · exact ⟨.ctor, name, found⟩
  · rintro ⟨space, name, found⟩
    cases space with
    | value => exact .inl ⟨name, found⟩
    | type => exact .inr (.inl ⟨name, found⟩)
    | ctor => exact .inr (.inr ⟨name, found⟩)

theorem Module.mem_exposedRoots_of_item {m : Module} {item : ExposedItem} {id : DeclId}
    (exposed : item ∈ m.exposedItems) (isRoot : id ∈ item.roots (Scope.ofModule m)) :
    id ∈ m.exposedRoots (Scope.ofModule m) := by
  by_cases exposesAll : m.exposesAll = true
  · rw [exposedItems_eq_nil exposesAll] at exposed
    exact absurd exposed (by simp)
  · rw [exposedRoots, if_neg exposesAll]
    exact List.mem_flatMap.mpr ⟨item, exposed, isRoot⟩

/-- The computed roots are those of the reference graph. -/
theorem Module.mem_roots_iff (m : Module) (id : DeclId) : id ∈ m.roots ↔ m.IsRoot id := by
  constructor
  · intro isRoot
    rcases List.mem_append.mp isRoot with isExposed | isOther
    · unfold exposedRoots at isExposed
      split at isExposed
      · next exposesAll =>
          obtain ⟨space, name, denotes⟩ := (m.mem_latestValues_iff id).mp isExposed
          exact .everything exposesAll denotes
      · obtain ⟨item, exposed, isRoot⟩ := List.mem_flatMap.mp isExposed
        exact ExposedItem.isRoot_of_mem_roots exposed isRoot
    · rcases List.mem_append.mp isOther with ofOperator | ofPort
      · obtain ⟨symbol, function, operator, denotes⟩ :=
          (Scope.mem_operatorRoots_iff m id).mp ofOperator
        exact .operatorFunction operator denotes
      · split at ofPort
        · next isPort =>
            obtain ⟨decl, isDecl, isRoot⟩ := List.mem_flatMap.mp ofPort
            have declared := (m.mem_portDecls_iff decl).mp isDecl
            rcases List.mem_cons.mp isRoot with rfl | inType
            · exact .port isPort declared
            · obtain ⟨reference, mentioned, resolves⟩ := (mem_resolved_iff _ _ _).mp inType
              have mentions := (decl.type.mem_references_iff _).mp mentioned
              exact .portType isPort declared mentions resolves
        · exact absurd ofPort (by simp)
  · intro isRoot
    cases isRoot with
    | everything exposesAll denotes =>
        refine List.mem_append_left _ ?_
        rw [exposedRoots, if_pos exposesAll]
        exact (m.mem_latestValues_iff id).mpr ⟨_, _, denotes⟩
    | exposedValue exposed denotes =>
        refine List.mem_append_left _ (mem_exposedRoots_of_item exposed ?_)
        exact Option.mem_toList.mpr ((Scope.find?_eq_some_iff m .value _ id).mpr denotes)
    | exposedOperator exposed operator denotes =>
        refine List.mem_append_left _ (mem_exposedRoots_of_item exposed ?_)
        refine Option.mem_toList.mpr ((Scope.operator?_eq_some_iff m _ id).mpr ?_)
        exact ⟨_, operator, denotes⟩
    | exposedType exposed denotes =>
        refine List.mem_append_left _ (mem_exposedRoots_of_item exposed ?_)
        refine List.mem_append_left _ (Option.mem_toList.mpr ?_)
        exact (Scope.find?_eq_some_iff m .type _ id).mpr denotes
    | exposedCtor exposed declared sameName isCtor =>
        refine List.mem_append_left _ (mem_exposedRoots_of_item exposed ?_)
        refine List.mem_append_right _ ((Scope.mem_ctorsOf_iff m _ _).mpr ?_)
        exact ⟨_, declared, sameName, _, isCtor, rfl⟩
    | operatorFunction operator denotes =>
        refine List.mem_append_right _ (List.mem_append_left _ ?_)
        exact (Scope.mem_operatorRoots_iff m id).mpr ⟨_, _, operator, denotes⟩
    | port isPort declared =>
        refine List.mem_append_right _ (List.mem_append_right _ ?_)
        rw [if_pos isPort]
        refine List.mem_flatMap.mpr ⟨_, (m.mem_portDecls_iff _).mpr declared, ?_⟩
        exact List.mem_cons_self ..
    | portType isPort declared mentions resolves =>
        refine List.mem_append_right _ (List.mem_append_right _ ?_)
        rw [if_pos isPort]
        refine List.mem_flatMap.mpr ⟨_, (m.mem_portDecls_iff _).mpr declared, ?_⟩
        refine List.mem_cons_of_mem _ ((mem_resolved_iff _ _ _).mpr ?_)
        exact ⟨_, (TypeExpr.mem_references_iff _ _).mpr mentions, resolves⟩

/-! ### The analysis -/

namespace Usage

/-- The analysis finds alive what is alive. -/
theorem isReachable_iff_alive (m : Module) (id : DeclId) :
    (ofModule m).isReachable id = true ↔ m.Alive id := by
  rw [isReachable, decide_eq_true_iff]
  change id ∈ reachable m.edges m.roots ↔ _
  rw [mem_reachable_iff, reaches_iff_path m.mem_roots_iff m.mem_edges_iff]
  rfl

/-- The analysis takes up no more declarations than there are roots and edges, and ends with nothing
left to visit. It finds exactly those that a path leads to from a root. Adding the functions of all
operator declarations to the roots makes no difference if they are found anyway, and only then; they
are if no operator is given two functions. -/
theorem isReachable_iff_path_from_root (m : Module) :
    (∃ visits last, visits ≤ m.roots.length + m.edges.length ∧
      (Search.start m.roots).visitTimes? m.edges visits = some last ∧ last.todo = [] ∧
      (ofModule m).alive = last.marked ∧ last.marked.Nodup) ∧
    (∀ id, (ofModule m).isReachable id = true ↔
      ∃ root, m.IsRoot root ∧ Relation.ReflTransGen m.Refers root id) ∧
    ((∀ id, (ofModule m).isReachable id = true ↔
        ∃ root, (m.IsRoot root ∨ m.IsOperatorFunction root) ∧
          Relation.ReflTransGen m.Refers root id) ↔
      ∀ id, m.IsOperatorFunction id → (ofModule m).isReachable id = true) ∧
    (m.GivesOperatorsOneFunction →
      ∀ id, m.IsOperatorFunction id → (ofModule m).isReachable id = true) := by
  refine ⟨?_, isReachable_iff_alive m, ?_, ?_⟩
  · obtain ⟨visits, last, bounded, visited, nothingLeft, found⟩ := reachable_ends m.edges m.roots
    refine ⟨visits, last, bounded, visited, nothingLeft, found, ?_⟩
    exact found ▸ reachable_nodup m.edges m.roots
  · constructor
    · intro sameForAll id isFunction
      exact (sameForAll id).mpr ⟨id, .inr isFunction, .refl⟩
    · intro functionsFound id
      rw [isReachable_iff_alive]
      constructor
      · rintro ⟨root, isRoot, path⟩
        exact ⟨root, .inl isRoot, path⟩
      · rintro ⟨root, isRoot | isFunction, path⟩
        · exact ⟨root, isRoot, path⟩
        · have alive := (isReachable_iff_alive m root).mp (functionsFound root isFunction)
          exact alive.along path
  · intro oneFunction id isFunction
    exact (isReachable_iff_alive m id).mpr (isFunction.isRoot oneFunction).alive

/-- A module that exposes nothing and defines one operator twice. -/
def operatorDefinedTwice : Module where
  header := some ⟨.plain, ⟨"Pair", default⟩, .explicit [] default, default⟩
  imports := []
  declarations := [
    .operator ⟨⟨"|+", default⟩, ⟨"first", default⟩, default⟩,
    .operator ⟨⟨"|+", default⟩, ⟨"second", default⟩, default⟩,
    .value ⟨none, ⟨"first", default⟩, [], .unit default, default⟩,
    .value ⟨none, ⟨"second", default⟩, [], .unit default, default⟩]
  span := default

/-- Only the last declaration of an operator keeps its function alive. -/
theorem function_of_replaced_operator_dead :
    (∃ declaration ∈ operatorDefinedTwice.declarations,
      declaration.DefinesOperator "|+" "first") ∧
    operatorDefinedTwice.Denotes .value "first" (.value "first") ∧
    (ofModule operatorDefinedTwice).isReachable (.value "first") = false ∧
    (ofModule operatorDefinedTwice).isReachable (.value "second") = true := by
  have aliveOnly : (ofModule operatorDefinedTwice).alive = [.value "second"] := by
    have edges : operatorDefinedTwice.edges = [] := by decide
    -- both entries of the operator table find the later function
    have roots : operatorDefinedTwice.roots = [.value "second", .value "second"] := by decide
    rw [ofModule, edges, roots]
    exact Search.finish_of_visitTimes 2 rfl
  refine ⟨⟨_, List.mem_cons_self .., _, rfl, rfl, rfl⟩, ?_, ?_, ?_⟩
  · rw [← Scope.find?_eq_some_iff]
    decide
  · rw [isReachable, aliveOnly]
    decide
  · rw [isReachable, aliveOnly]
    decide

end Usage

end ElmDiagnostics
