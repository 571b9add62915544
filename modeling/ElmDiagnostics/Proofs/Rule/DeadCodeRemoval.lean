import ElmDiagnostics.Proofs.Usage.ReferenceGraph
import ElmDiagnostics.Rule.DeadCode

/-!
Contract: what the rules for unused values, types and aliases report can be deleted.

Owns: the module that is left after the deletion, that names which occur in its live code mean
what they meant before, and that the same declarations are alive in it.

Does not own: constructors that occur nowhere, which are judged by another rule.

Deleting a declaration can uncover an earlier one of the same name. This never matters: whatever a
name stands for is alive when live code or the exposing clause mentions the name, so the
declaration that counted before is one of those that stay.
-/

set_option autoImplicit false

namespace ElmDiagnostics

/-! ### Reported declarations -/

/-- What a declaration declares, its constructors included. -/
def Declaration.Declares (declaration : Declaration) (id : DeclId) : Prop :=
  ∃ space name, declaration.Introduces space name id

theorem Declaration.Part.declares {declaration : Declaration} {id : DeclId} {node : Node}
    (isPart : declaration.Part id node) : declaration.Declares id := by
  cases isPart with
  | value decl node isPart => exact ⟨_, _, .value decl⟩
  | port decl => exact ⟨_, _, .port decl⟩
  | typeAlias decl => exact ⟨_, _, .typeAlias decl⟩
  | customType decl ctor arg isCtor isArg => exact ⟨_, _, .customType decl⟩
  | ctor decl ctor arg isCtor isArg => exact ⟨_, _, .ctor decl ctor isCtor⟩

/-- The identity by which the rules for unused declarations judge a declaration. -/
def Declaration.judgedId? : Declaration → Option DeclId
  | .value decl => some (.value decl.name.text)
  | .typeAlias decl => some (.typeAlias decl.name.text)
  | .customType decl => some (.customType decl.name.text)
  | .port _ | .operator _ => none

namespace Rule

/-- Whether the declaration is reported as an unused definition or an unused alias. -/
def reportsUnused (usage : Usage) (declaration : Declaration) : Bool :=
  !(unusedTopLevelOf usage declaration ++ unusedTypeAliasOf usage declaration).isEmpty

theorem reportsUnused_iff (usage : Usage) (declaration : Declaration) :
    reportsUnused usage declaration = true ↔
      ∃ id, declaration.judgedId? = some id ∧ usage.isReachable id = false := by
  cases declaration with
  | value decl =>
      cases alive : usage.isReachable (.value decl.name.text) <;>
        simp [reportsUnused, unusedTopLevelOf, unusedTypeAliasOf, Declaration.judgedId?,
          Declaration.name, alive]
  | customType decl =>
      cases alive : usage.isReachable (.customType decl.name.text) <;>
        simp [reportsUnused, unusedTopLevelOf, unusedTypeAliasOf, Declaration.judgedId?,
          Declaration.name, alive]
  | typeAlias decl =>
      cases alive : usage.isReachable (.typeAlias decl.name.text) <;>
        simp [reportsUnused, unusedTopLevelOf, unusedTypeAliasOf, Declaration.judgedId?, alive]
  | port | operator =>
      simp [reportsUnused, unusedTopLevelOf, unusedTypeAliasOf, Declaration.judgedId?]

theorem reports_eq_nil_of_not_reportsUnused {usage : Usage} {declaration : Declaration}
    (silent : reportsUnused usage declaration = false) :
    unusedTopLevelOf usage declaration = [] ∧ unusedTypeAliasOf usage declaration = [] := by
  unfold reportsUnused at silent
  rw [Bool.not_eq_false', List.isEmpty_iff] at silent
  exact List.append_eq_nil_iff.mp silent

end Rule

namespace Module

/-- The module without the declarations that are reported as unused. -/
def withoutUnused (m : Module) : Module :=
  { m with
    declarations := m.declarations.filter fun declaration =>
      !Rule.reportsUnused (Usage.ofModule m) declaration }

theorem mem_withoutUnused_iff (m : Module) (declaration : Declaration) :
    declaration ∈ m.withoutUnused.declarations ↔
      declaration ∈ m.declarations ∧ ∀ id, declaration.judgedId? = some id → m.Alive id := by
  have kept : (!Rule.reportsUnused (Usage.ofModule m) declaration) = true ↔
      ∀ id, declaration.judgedId? = some id → m.Alive id := by
    rw [Bool.not_eq_true', Bool.eq_false_iff, ne_eq, Rule.reportsUnused_iff]
    simp only [← Usage.isReachable_iff_alive, not_exists, not_and, Bool.not_eq_false]
  rw [← kept]
  exact List.mem_filter

/-- A declaration of something alive stays. A constructor keeps its type alive, so the types of
alive constructors stay too. -/
theorem mem_withoutUnused_of_declares {m : Module} {declaration : Declaration} {id : DeclId}
    (declared : declaration ∈ m.declarations) (declares : declaration.Declares id)
    (alive : m.Alive id) : declaration ∈ m.withoutUnused.declarations := by
  refine (m.mem_withoutUnused_iff declaration).mpr ⟨declared, fun judged isJudged => ?_⟩
  obtain ⟨space, name, introduced⟩ := declares
  cases introduced with
  | value | typeAlias | customType | recordAlias => exact Option.some.inj isJudged ▸ alive
  | port => exact absurd isJudged (by simp [Declaration.judgedId?])
  | ctor decl ctor isCtor =>
      have ownerAlive := alive.refers (.owner declared isCtor)
      exact Option.some.inj isJudged ▸ ownerAlive

theorem mem_of_mem_withoutUnused {m : Module} {declaration : Declaration}
    (kept : declaration ∈ m.withoutUnused.declarations) : declaration ∈ m.declarations :=
  ((m.mem_withoutUnused_iff declaration).mp kept).1

/-! ### Names keep their meaning -/

theorem keeps_introducing {m : Module} {space : NameSpace} {name : String} {id : DeclId}
    (alive : m.Alive id) {declaration : Declaration} (declared : declaration ∈ m.declarations)
    (introduced : declaration.Introduces space name id) :
    (!Rule.reportsUnused (Usage.ofModule m) declaration) = true :=
  (List.mem_filter.mp
    (mem_withoutUnused_of_declares declared ⟨space, name, introduced⟩ alive)).2

theorem Denotes.withoutUnused {m : Module} {space : NameSpace} {name : String} {id : DeclId}
    (denotes : m.Denotes space name id) (alive : m.Alive id) :
    m.withoutUnused.Denotes space name id := by
  apply LastOf.filter _ denotes
  intro declaration declared introduced
  exact keeps_introducing alive declared introduced

/-- A name that stood for something alive stands for the same after the deletion. -/
theorem Denotes.of_withoutUnused {m : Module} {space : NameSpace} {name : String} {id : DeclId}
    (denotes : m.withoutUnused.Denotes space name id)
    (namesAlive : ∀ named, m.Denotes space name named → m.Alive named) :
    m.Denotes space name id := by
  apply LastOf.of_filter _ _ denotes
  · intro declaration named other introduced introducedOther
    exact introduced.unique introducedOther
  · intro named isNamed declaration declared introduced
    exact keeps_introducing (namesAlive named isNamed) declared introduced

theorem operatorDenotes_withoutUnused_iff (m : Module) (symbol function : String) :
    m.withoutUnused.OperatorDenotes symbol function ↔ m.OperatorDenotes symbol function := by
  have keepsOperators : ∀ function, ∀ declaration ∈ m.declarations,
      declaration.DefinesOperator symbol function →
        (!Rule.reportsUnused (Usage.ofModule m) declaration) = true := by
    rintro function _ declared ⟨decl, rfl, _, _⟩
    have kept : .operator decl ∈ m.withoutUnused.declarations :=
      (m.mem_withoutUnused_iff _).mpr ⟨declared, fun _ isJudged => nomatch isJudged⟩
    exact (List.mem_filter.mp kept).2
  constructor
  · intro operator
    apply LastOf.of_filter _ _ operator
    · intro declaration function other defines definesOther
      exact defines.unique definesOther
    · intro before _
      exact keepsOperators before
  · intro operator
    exact LastOf.filter (keepsOperators function) operator

theorem Resolves.withoutUnused {m : Module} {reference : Reference} {id : DeclId}
    (resolves : m.Resolves reference id) (alive : m.Alive id) :
    m.withoutUnused.Resolves reference id := by
  cases resolves with
  | value denotes => exact .value (denotes.withoutUnused alive)
  | ctor denotes => exact .ctor (denotes.withoutUnused alive)
  | type denotes => exact .type (denotes.withoutUnused alive)

theorem Resolves.of_withoutUnused {m : Module} {reference : Reference} {id : DeclId}
    (resolves : m.withoutUnused.Resolves reference id)
    (meansAlive : ∀ meant, m.Resolves reference meant → m.Alive meant) :
    m.Resolves reference id := by
  cases resolves with
  | value denotes =>
      exact .value (denotes.of_withoutUnused fun named isNamed => meansAlive named (.value isNamed))
  | ctor denotes =>
      exact .ctor (denotes.of_withoutUnused fun named isNamed => meansAlive named (.ctor isNamed))
  | type denotes =>
      exact .type (denotes.of_withoutUnused fun named isNamed => meansAlive named (.type isNamed))

/-! ### The graph stays -/

theorem port_mem_withoutUnused_iff (m : Module) (decl : PortDecl) :
    .port decl ∈ m.withoutUnused.declarations ↔ .port decl ∈ m.declarations := by
  rw [mem_withoutUnused_iff]
  exact and_iff_left fun _ isJudged => nomatch isJudged

theorem DefinitionMentions.withoutUnused {m : Module} {id : DeclId} {reference : Reference}
    (mentions : m.DefinitionMentions id reference) (alive : m.Alive id) :
    m.withoutUnused.DefinitionMentions id reference := by
  obtain ⟨declaration, declared, node, isPart, mentions⟩ := mentions
  have kept := mem_withoutUnused_of_declares declared isPart.declares alive
  exact ⟨declaration, kept, node, isPart, mentions⟩

theorem DefinitionMentions.of_withoutUnused {m : Module} {id : DeclId} {reference : Reference}
    (mentions : m.withoutUnused.DefinitionMentions id reference) :
    m.DefinitionMentions id reference := by
  obtain ⟨declaration, kept, rest⟩ := mentions
  exact ⟨declaration, mem_of_mem_withoutUnused kept, rest⟩

theorem isRoot_withoutUnused_iff (m : Module) (id : DeclId) :
    m.withoutUnused.IsRoot id ↔ m.IsRoot id := by
  constructor
  · intro isRoot
    cases isRoot with
    | everything exposesAll denotes =>
        refine .everything exposesAll (denotes.of_withoutUnused fun named isNamed => ?_)
        exact IsRoot.alive (.everything exposesAll isNamed)
    | exposedValue exposed denotes =>
        refine .exposedValue exposed (denotes.of_withoutUnused fun named isNamed => ?_)
        exact IsRoot.alive (.exposedValue exposed isNamed)
    | exposedOperator exposed operator denotes =>
        rw [operatorDenotes_withoutUnused_iff] at operator
        refine .exposedOperator exposed operator (denotes.of_withoutUnused fun named isNamed => ?_)
        exact IsRoot.alive (.exposedOperator exposed operator isNamed)
    | exposedType exposed denotes =>
        refine .exposedType exposed (denotes.of_withoutUnused fun named isNamed => ?_)
        exact IsRoot.alive (.exposedType exposed isNamed)
    | exposedCtor exposed declared sameName isCtor =>
        exact .exposedCtor exposed (mem_of_mem_withoutUnused declared) sameName isCtor
    | operatorFunction operator denotes =>
        rw [operatorDenotes_withoutUnused_iff] at operator
        refine .operatorFunction operator (denotes.of_withoutUnused fun named isNamed => ?_)
        exact IsRoot.alive (.operatorFunction operator isNamed)
    | port isPort declared =>
        exact .port isPort (mem_of_mem_withoutUnused declared)
    | portType isPort declared mentions resolves =>
        have declaredBefore := mem_of_mem_withoutUnused declared
        refine .portType isPort declaredBefore mentions
          (resolves.of_withoutUnused fun meant isMeant => ?_)
        exact IsRoot.alive (.portType isPort declaredBefore mentions isMeant)
  · intro isRoot
    have alive := isRoot.alive
    cases isRoot with
    | everything exposesAll denotes =>
        exact .everything exposesAll (denotes.withoutUnused alive)
    | exposedValue exposed denotes => exact .exposedValue exposed (denotes.withoutUnused alive)
    | exposedOperator exposed operator denotes =>
        exact .exposedOperator exposed ((m.operatorDenotes_withoutUnused_iff _ _).mpr operator)
          (denotes.withoutUnused alive)
    | exposedType exposed denotes => exact .exposedType exposed (denotes.withoutUnused alive)
    | exposedCtor exposed declared sameName isCtor =>
        have kept := mem_withoutUnused_of_declares declared ⟨_, _, .ctor _ _ isCtor⟩ alive
        exact .exposedCtor exposed kept sameName isCtor
    | operatorFunction operator denotes =>
        exact .operatorFunction ((m.operatorDenotes_withoutUnused_iff _ _).mpr operator)
          (denotes.withoutUnused alive)
    | port isPort declared => exact .port isPort ((m.port_mem_withoutUnused_iff _).mpr declared)
    | portType isPort declared mentions resolves =>
        exact .portType isPort ((m.port_mem_withoutUnused_iff _).mpr declared) mentions
          (resolves.withoutUnused alive)

/-- The edges that leave something alive stay, and none is added. -/
theorem refers_withoutUnused_iff {m : Module} {source : DeclId} (alive : m.Alive source)
    (target : DeclId) : m.withoutUnused.Refers source target ↔ m.Refers source target := by
  constructor
  · intro refers
    cases refers with
    | mention mentions resolves different =>
        have mentionsBefore := mentions.of_withoutUnused
        refine .mention mentionsBefore (resolves.of_withoutUnused fun meant isMeant => ?_) different
        exact alive.mentioned mentionsBefore isMeant
    | owner declared isCtor => exact .owner (mem_of_mem_withoutUnused declared) isCtor
  · intro refers
    have targetAlive := alive.refers refers
    cases refers with
    | mention mentions resolves different =>
        exact .mention (mentions.withoutUnused alive) (resolves.withoutUnused targetAlive) different
    | owner declared isCtor =>
        exact .owner (mem_withoutUnused_of_declares declared ⟨_, _, .ctor _ _ isCtor⟩ alive) isCtor

/-- The same declarations are alive before and after the deletion. -/
theorem alive_withoutUnused_iff (m : Module) (id : DeclId) :
    m.withoutUnused.Alive id ↔ m.Alive id := by
  constructor
  · rintro ⟨root, isRoot, path⟩
    -- along the path, each declaration is alive in the whole module
    induction path with
    | refl => exact ((m.isRoot_withoutUnused_iff root).mp isRoot).alive
    | tail _ refers inductionHypothesis =>
        exact inductionHypothesis.refers
          ((refers_withoutUnused_iff inductionHypothesis _).mp refers)
  · rintro ⟨root, isRoot, path⟩
    induction path with
    | refl => exact ((m.isRoot_withoutUnused_iff root).mpr isRoot).alive
    | tail pathToSource refers inductionHypothesis =>
        exact inductionHypothesis.refers
          ((refers_withoutUnused_iff ⟨root, isRoot, pathToSource⟩ _).mpr refers)

end Module

/-! ### Deleting what is reported -/

theorem Usage.isReachable_withoutUnused (m : Module) (id : DeclId) :
    (ofModule m.withoutUnused).isReachable id = (ofModule m).isReachable id := by
  rw [Bool.eq_iff_iff, isReachable_iff_alive, isReachable_iff_alive, m.alive_withoutUnused_iff]

theorem Rule.not_reportsUnused_withoutUnused {m : Module} {declaration : Declaration}
    (kept : declaration ∈ m.withoutUnused.declarations) :
    reportsUnused (Usage.ofModule m.withoutUnused) declaration = false := by
  rw [Bool.eq_false_iff, ne_eq, reportsUnused_iff]
  rintro ⟨id, isJudged, dead⟩
  have alive := ((m.mem_withoutUnused_iff declaration).mp kept).2 id isJudged
  rw [Usage.isReachable_withoutUnused, (Usage.isReachable_iff_alive m id).mpr alive] at dead
  exact Bool.noConfusion dead

/-- Deleting every declaration that is reported as unused is safe and done in one pass: no
reference in live code means something deleted, the same declarations are alive afterwards, and
nothing is reported any more. -/
theorem Rule.deleting_unused_safe_and_complete (m : Module) :
    (∀ source reference target, (Usage.ofModule m).isReachable source = true →
      m.DefinitionMentions source reference → m.Resolves reference target →
        ∀ deleted ∈ m.declarations, reportsUnused (Usage.ofModule m) deleted = true →
          ¬ deleted.Declares target) ∧
    (∀ id, (Usage.ofModule m.withoutUnused).isReachable id = (Usage.ofModule m).isReachable id) ∧
    ∀ interfaces,
      checkUnusedTopLevel (LintInput.ofModule m.withoutUnused interfaces) = [] ∧
      checkUnusedTypeAlias (LintInput.ofModule m.withoutUnused interfaces) = [] := by
  refine ⟨?_, Usage.isReachable_withoutUnused m, fun interfaces => ⟨?_, ?_⟩⟩
  · intro source reference target reachable mentions resolves deleted declared reported declares
    have alive := (Usage.isReachable_iff_alive m source).mp reachable
    have targetAlive := alive.mentioned mentions resolves
    have kept := Module.mem_withoutUnused_of_declares declared declares targetAlive
    have notReported := (List.mem_filter.mp kept).2
    rw [reported] at notReported
    exact Bool.noConfusion notReported
  · refine List.flatMap_eq_nil_iff.mpr fun declaration kept => ?_
    exact (reports_eq_nil_of_not_reportsUnused (not_reportsUnused_withoutUnused kept)).1
  · refine List.flatMap_eq_nil_iff.mpr fun declaration kept => ?_
    exact (reports_eq_nil_of_not_reportsUnused (not_reportsUnused_withoutUnused kept)).2

/-- The value `name`, defined as another value. -/
def Rule.definedAs (name other : String) : ValueDecl :=
  ⟨none, ⟨name, default⟩, [], .var ⟨none, ⟨other, default⟩, default⟩, default⟩

/-- The exposed `main` uses `helper`; an alias and a value, which itself uses `main`, are unused. -/
def Rule.liveAndSpare : Module where
  header := some ⟨.plain, ⟨"Mixed", default⟩, .explicit [.value ⟨"main", default⟩] default, default⟩
  imports := []
  declarations := [
    .value (definedAs "main" "helper"),
    .value (definedAs "spare" "main"),
    .typeAlias ⟨⟨"Spare", default⟩, [], .unit default, default⟩,
    .value ⟨none, ⟨"helper", default⟩, [], .unit default, default⟩]
  span := default

theorem Rule.deleting_spare_safe_and_complete :
    (Usage.ofModule liveAndSpare).isReachable (.value "main") = true ∧
    liveAndSpare.DefinitionMentions (.value "main") (.value none "helper") ∧
    liveAndSpare.Resolves (.value none "helper") (.value "helper") ∧
    .value (definedAs "spare" "main") ∈ liveAndSpare.declarations ∧
    reportsUnused (Usage.ofModule liveAndSpare) (.value (definedAs "spare" "main")) = true ∧
    ¬ (Declaration.value (definedAs "spare" "main")).Declares (.value "helper") ∧
    (Usage.ofModule liveAndSpare.withoutUnused).isReachable (.value "helper") = true ∧
    checkUnusedTypeAlias (LintInput.ofModule liveAndSpare.withoutUnused Table.empty) = [] := by
  have alive : (Usage.ofModule liveAndSpare).alive = [.value "helper", .value "main"] := by
    have edges : liveAndSpare.edges =
        [(.value "main", .value "helper"), (.value "spare", .value "main")] := by decide
    have roots : liveAndSpare.roots = [.value "main"] := by decide
    rw [Usage.ofModule, edges, roots]
    exact Search.finish_of_visitTimes 2 rfl
  have reachable (name : String) (isAlive : name = "main" ∨ name = "helper") :
      (Usage.ofModule liveAndSpare).isReachable (.value name) = true := by
    rw [Usage.isReachable, alive]
    rcases isAlive with rfl | rfl <;> decide
  have mentions : liveAndSpare.DefinitionMentions (.value "main") (.value none "helper") := by
    obtain ⟨node, isPart, mentions⟩ :=
      ((definedAs "main" "helper").mem_references_iff (.value none "helper")).mp (by decide)
    exact ⟨_, List.mem_cons_self .., node, .value _ node isPart, mentions⟩
  have resolves : liveAndSpare.Resolves (.value none "helper") (.value "helper") :=
    (Scope.resolve_eq_some_iff _ _ _).mp (by decide)
  have declared : .value (definedAs "spare" "main") ∈ liveAndSpare.declarations :=
    List.mem_cons_of_mem _ (List.mem_cons_self ..)
  have reported : reportsUnused (Usage.ofModule liveAndSpare)
      (.value (definedAs "spare" "main")) = true := by
    refine (reportsUnused_iff _ _).mpr ⟨.value "spare", rfl, ?_⟩
    rw [Usage.isReachable, alive]
    decide
  obtain ⟨safe, sameAlive, complete⟩ := deleting_unused_safe_and_complete liveAndSpare
  have helperAlive := (sameAlive (.value "helper")).trans (reachable "helper" (.inr rfl))
  exact ⟨reachable "main" (.inl rfl), mentions, resolves, declared, reported,
    safe _ _ _ (reachable "main" (.inl rfl)) mentions resolves _ declared reported,
    helperAlive, (complete Table.empty).2⟩

end ElmDiagnostics
