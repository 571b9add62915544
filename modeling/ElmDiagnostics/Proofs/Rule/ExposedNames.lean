import ElmDiagnostics.Proofs.Rule.DeadCodeRemoval
import ElmDiagnostics.Workspace.Interface
import Mathlib.Data.List.Induction
import Mathlib.Data.List.Nodup
import Mathlib.Data.List.Pairwise

/-!
Contract: what a module hands to others means the same wherever the exposing clause is read.

Owns: modules whose names are declared and exposed once; what the interface of such a module lists;
that all of it is alive; and that the interface shows the constructors of a type exactly when the
rule for unused constructors leaves the type alone.

Does not own: modules that declare or expose a name twice. There the readers differ: the interface
goes by the first item of a name, and the name tables go by the last declaration.
-/

set_option autoImplicit false

namespace ElmDiagnostics

/-! ### Names that are declared once -/

/-- If everything that the items introduce is `value`, so is what the last one introduces. -/
theorem lastOf_of_forall_eq {α β : Type} {introduces : α → β → Prop} {items : List α} {value : β}
    (introduced : ∃ item ∈ items, introduces item value)
    (allSame : ∀ item ∈ items, ∀ other, introduces item other → other = value) :
    LastOf introduces items value := by
  obtain ⟨item, inItems, introducesValue⟩ := introduced
  obtain ⟨other, last⟩ := exists_lastOf ⟨item, inItems, value, introducesValue⟩
  obtain ⟨source, isSource, introducesOther⟩ := last.introduced
  exact allSame source isSource other introducesOther ▸ last

def ExposedItem.isType : ExposedItem → Bool
  | .type _ _ _ => true
  | _ => false

namespace Module

/-- The names that are declared in a space, as often as they are. -/
def declaredNames (m : Module) (space : NameSpace) : List String :=
  m.declarations.flatMap fun declaration => (space.entriesOf declaration).map Prod.fst

/-- In no space a name is declared twice, no two exposed items share a name, and items for values
and operators have no name of a type. -/
structure DistinctlyNamed (m : Module) : Prop where
  declaredOnce : ∀ space, (m.declaredNames space).Nodup
  exposedOnce : (m.exposedItems.map fun item => item.name.text).Nodup
  typesApart : ∀ item ∈ m.exposedItems, item.isType = false →
    item.name.text ∉ m.declaredNames .type

theorem mem_declaredNames_of_introduces {m : Module} {declaration : Declaration}
    {space : NameSpace} {name : String} {id : DeclId} (declared : declaration ∈ m.declarations)
    (introduced : declaration.Introduces space name id) : name ∈ m.declaredNames space := by
  apply List.mem_flatMap.mpr
  refine ⟨declaration, declared, List.mem_map.mpr ⟨(name, id), ?_, rfl⟩⟩
  exact (space.mem_entriesOf_iff declaration name id).mpr introduced

namespace DistinctlyNamed

variable {m : Module}

theorem declaration_unique (distinct : m.DistinctlyNamed) {first second : Declaration}
    {space : NameSpace} {name : String} {id other : DeclId}
    (firstDeclared : first ∈ m.declarations) (introduced : first.Introduces space name id)
    (secondDeclared : second ∈ m.declarations)
    (introducedAgain : second.Introduces space name other) : first = second := by
  let namesOf (declaration : Declaration) : List String :=
    (space.entriesOf declaration).map Prod.fst
  have inNames {declaration : Declaration} {id : DeclId}
      (introduced : declaration.Introduces space name id) : name ∈ namesOf declaration :=
    List.mem_map.mpr ⟨_, (space.mem_entriesOf_iff declaration name id).mpr introduced, rfl⟩
  have symmetric : Std.Symm (Function.onFun List.Disjoint namesOf) :=
    ⟨fun _ _ apart _ inSecond inFirst => apart inFirst inSecond⟩
  by_contra differ
  have pairwiseApart := (List.nodup_flatMap.mp (distinct.declaredOnce space)).2
  exact pairwiseApart.forall firstDeclared secondDeclared differ (inNames introduced)
    (inNames introducedAgain)

theorem denotes (distinct : m.DistinctlyNamed) {declaration : Declaration} {space : NameSpace}
    {name : String} {id : DeclId} (declared : declaration ∈ m.declarations)
    (introduced : declaration.Introduces space name id) : m.Denotes space name id := by
  apply lastOf_of_forall_eq ⟨declaration, declared, introduced⟩
  intro source isSource other introducedOther
  have same := distinct.declaration_unique isSource introducedOther declared introduced
  exact introducedOther.unique (same ▸ introduced)

/-! ### Items that are listed once -/

/-- The first item of a name is the only one. -/
theorem exposedAs?_eq_some_iff (distinct : m.DistinctlyNamed) (name : String)
    (item : ExposedItem) :
    Interface.exposedAs? m name = some item ↔ item ∈ m.exposedItems ∧ item.name.text = name := by
  constructor
  · intro found
    exact ⟨List.mem_of_find?_eq_some found, by simpa using List.find?_some found⟩
  · rintro ⟨exposed, rfl⟩
    have isFound : (Interface.exposedAs? m item.name.text).isSome := by
      rw [Interface.exposedAs?, List.find?_isSome]
      exact ⟨item, exposed, by simp⟩
    obtain ⟨first, found⟩ := Option.isSome_iff_exists.mp isFound
    have sameName : first.name.text = item.name.text := by simpa using List.find?_some found
    have same := List.inj_on_of_nodup_map distinct.exposedOnce
      (List.mem_of_find?_eq_some found) exposed sameName
    rw [found, same]

end DistinctlyNamed

end Module

/-! ### The interface -/

theorem latest_singleton {α : Type} (pair : String × α) (name : String) :
    latest [pair] name = if name = pair.1 then some pair.2 else none := by
  rw [latest, List.reverse_singleton, List.lookup_cons, List.lookup_nil]
  by_cases isName : name = pair.1
  · simp [isName]
  · simp [isName, beq_false_of_ne isName]

theorem Table.get?_ofList {α : Type} (pairs : List (String × α)) (name : String) :
    (Table.ofList pairs).get? name = latest pairs name := by
  induction pairs using List.reverseRecOn with
  | nil => rfl
  | append_singleton pairs pair inductionHypothesis =>
      have stored : Table.ofList (pairs ++ [pair]) = (Table.ofList pairs).insert pair.1 pair.2 := by
        rw [Table.ofList, List.foldl_append]
        rfl
      rw [stored, Table.get?_insert, inductionHypothesis, latest_append, latest_singleton]
      split <;> rfl

/-- Everything is exposed, or an item for the type with its constructors is. -/
def Module.HandsOutCtors (m : Module) (typeName : String) : Prop :=
  m.exposesAll = true ∨
    ∃ name dots span, .type name (some dots) span ∈ m.exposedItems ∧ name.text = typeName

def CustomTypeDecl.ctorNames (decl : CustomTypeDecl) : List String :=
  decl.ctors.map fun ctor => ctor.name.text

namespace Interface

/-- The interface lists the name: as a value or port, as a type, or among the constructors of some
type. -/
def Lists (interface : Interface) : NameSpace → String → Prop
  | .value, name => name ∈ interface.values
  | .type, name => (interface.constructorsOf? name).isSome
  | .ctor, name => ∃ typeName ctors, interface.constructorsOf? typeName = some ctors ∧ name ∈ ctors

theorem mem_declaredValues_iff (m : Module) (declaration : Declaration) (name : String) :
    name ∈ declaredValues m declaration ↔
      (∃ id, declaration.Introduces .value name id) ∧ exposesValue m name = true := by
  constructor
  · intro listed
    cases declaration with
    | value decl =>
        obtain ⟨exposed, isName⟩ := List.mem_ite_nil_right.mp listed
        obtain rfl := List.mem_singleton.mp isName
        exact ⟨⟨_, .value decl⟩, exposed⟩
    | port decl =>
        obtain ⟨exposed, isName⟩ := List.mem_ite_nil_right.mp listed
        obtain rfl := List.mem_singleton.mp isName
        exact ⟨⟨_, .port decl⟩, exposed⟩
    | _ => exact absurd listed List.not_mem_nil
  · rintro ⟨⟨id, introduced⟩, exposed⟩
    cases introduced with
    | value decl => exact List.mem_ite_nil_right.mpr ⟨exposed, List.mem_singleton_self _⟩
    | port decl => exact List.mem_ite_nil_right.mpr ⟨exposed, List.mem_singleton_self _⟩

theorem mem_values_iff (m : Module) (name : String) :
    name ∈ (ofModule m).values ↔
      (∃ declaration ∈ m.declarations, ∃ id, declaration.Introduces .value name id) ∧
        exposesValue m name = true := by
  simp only [ofModule, List.mem_flatMap, mem_declaredValues_iff]
  constructor
  · rintro ⟨declaration, declared, introduced, exposed⟩
    exact ⟨⟨declaration, declared, introduced⟩, exposed⟩
  · rintro ⟨⟨declaration, declared, introduced⟩, exposed⟩
    exact ⟨declaration, declared, introduced, exposed⟩

theorem mem_declaredTypes_customType_iff (m : Module) (decl : CustomTypeDecl) (name : String)
    (ctors : List String) :
    (name, ctors) ∈ declaredTypes m (.customType decl) ↔ name = decl.name.text ∧
      (m.exposesAll = true ∧ ctors = decl.ctorNames ∨
        m.exposesAll = false ∧ ∃ item dots span,
          exposedAs? m decl.name.text = some (.type item dots span) ∧
            ctors = if dots.isSome then decl.ctorNames else []) := by
  rw [declaredTypes]
  cases m.exposesAll with
  | true => simp [CustomTypeDecl.ctorNames]
  | false =>
      rcases exposedAs? m decl.name.text with _ | _ | _ | ⟨item, dots, span⟩ <;>
        simp [CustomTypeDecl.ctorNames]

/-- A declaration adds at most one type. -/
theorem declaredTypes_eq_nil_or_singleton (m : Module) (declaration : Declaration) :
    declaredTypes m declaration = [] ∨ ∃ name id ctors, declaration.Introduces .type name id ∧
      declaredTypes m declaration = [(name, ctors)] := by
  cases declaration with
  | typeAlias decl =>
      rw [declaredTypes]
      split
      · exact .inr ⟨_, _, [], .typeAlias decl, rfl⟩
      · exact .inl rfl
  | customType decl =>
      rw [declaredTypes]
      split
      · exact .inr ⟨_, _, _, .customType decl, rfl⟩
      · split
        · exact .inr ⟨_, _, _, .customType decl, rfl⟩
        · exact .inl rfl
  | _ => exact .inl rfl

theorem introduces_of_mem_declaredTypes {m : Module} {declaration : Declaration} {name : String}
    {ctors : List String} (listed : (name, ctors) ∈ declaredTypes m declaration) :
    ∃ id, declaration.Introduces .type name id := by
  rcases declaredTypes_eq_nil_or_singleton m declaration with none | ⟨_, id, _, introduced, one⟩
  · rw [none] at listed
    exact absurd listed List.not_mem_nil
  · rw [one] at listed
    obtain ⟨rfl, _⟩ := Prod.mk.inj (List.mem_singleton.mp listed)
    exact ⟨id, introduced⟩

theorem declaredTypes_single (m : Module) (declaration : Declaration) (name : String)
    (ctors others : List String) (listed : (name, ctors) ∈ declaredTypes m declaration)
    (listedAgain : (name, others) ∈ declaredTypes m declaration) : ctors = others := by
  rcases declaredTypes_eq_nil_or_singleton m declaration with none | ⟨_, _, _, _, one⟩
  · rw [none] at listed
    exact absurd listed List.not_mem_nil
  · rw [one] at listed listedAgain
    have same := (List.mem_singleton.mp listed).trans (List.mem_singleton.mp listedAgain).symm
    exact (Prod.mk.inj same).2

end Interface

namespace Module.DistinctlyNamed

open Interface

variable {m : Module}

theorem exposesValue_iff (distinct : m.DistinctlyNamed) (name : String) :
    exposesValue m name = true ↔
      m.exposesAll = true ∨ ∃ item, .value item ∈ m.exposedItems ∧ item.text = name := by
  rw [exposesValue, Bool.or_eq_true]
  apply or_congr_right
  constructor
  · intro isValue
    split at isValue
    next item found => exact ⟨item, (distinct.exposedAs?_eq_some_iff name (.value item)).mp found⟩
    next => exact absurd isValue Bool.false_ne_true
  · rintro ⟨item, listed⟩
    rw [(distinct.exposedAs?_eq_some_iff name (.value item)).mpr listed]

theorem constructorsOf?_eq_some_iff (distinct : m.DistinctlyNamed) (name : String)
    (ctors : List String) :
    (ofModule m).constructorsOf? name = some ctors ↔
      ∃ declaration ∈ m.declarations, (name, ctors) ∈ declaredTypes m declaration := by
  show (Table.ofList (m.declarations.flatMap (declaredTypes m))).get? name = some ctors ↔ _
  rw [Table.get?_ofList, latest_flatMap_iff _ (declaredTypes_single m)]
  constructor
  · exact LastOf.introduced
  · rintro ⟨declaration, declared, listed⟩
    apply lastOf_of_forall_eq ⟨declaration, declared, listed⟩
    intro other otherDeclared others otherListed
    obtain ⟨id, introduced⟩ := introduces_of_mem_declaredTypes listed
    obtain ⟨otherId, otherIntroduced⟩ := introduces_of_mem_declaredTypes otherListed
    obtain rfl := distinct.declaration_unique otherDeclared otherIntroduced declared introduced
    exact declaredTypes_single m other name others ctors otherListed listed

/-- A type that the interface lists is exposed as a type: no item of another kind has its name. -/
theorem exposedType_of_listed (distinct : m.DistinctlyNamed) {declaration : Declaration}
    {name : String} {ctors : List String} (declared : declaration ∈ m.declarations)
    (listed : (name, ctors) ∈ declaredTypes m declaration) :
    m.exposesAll = true ∨
      ∃ item dots span, .type item dots span ∈ m.exposedItems ∧ item.text = name := by
  obtain ⟨id, introduced⟩ := introduces_of_mem_declaredTypes listed
  have isType := mem_declaredNames_of_introduces declared introduced
  by_cases exposesAll : m.exposesAll = true
  · exact .inl exposesAll
  right
  have found : ∃ item, exposedAs? m name = some item := by
    cases introduced with
    | typeAlias decl =>
        have exposed := (List.mem_ite_nil_right.mp listed).1
        simpa [exposesAll, Option.isSome_iff_exists] using exposed
    | customType decl =>
        rcases ((mem_declaredTypes_customType_iff m decl _ ctors).mp listed).2 with
          ⟨all, _⟩ | ⟨_, item, dots, span, isFirst, _⟩
        · exact absurd all exposesAll
        · exact ⟨_, isFirst⟩
  obtain ⟨item, isFirst⟩ := found
  obtain ⟨exposed, itsName⟩ := (distinct.exposedAs?_eq_some_iff name item).mp isFirst
  subst itsName
  cases item with
  | value item => exact absurd isType (distinct.typesApart _ exposed rfl)
  | operator symbol => exact absurd isType (distinct.typesApart _ exposed rfl)
  | type item dots span => exact ⟨item, dots, span, exposed, rfl⟩

/-- The constructors that the interface lists under a name are those of the type, and the module
hands them out. -/
theorem handsOut_of_mem_ctors (distinct : m.DistinctlyNamed) {declaration : Declaration}
    {name ctor : String} {ctors : List String}
    (listed : (name, ctors) ∈ declaredTypes m declaration) (isCtor : ctor ∈ ctors) :
    ∃ decl, declaration = .customType decl ∧ m.HandsOutCtors decl.name.text ∧
      ctor ∈ decl.ctorNames := by
  obtain ⟨id, introduced⟩ := introduces_of_mem_declaredTypes listed
  cases introduced with
  | typeAlias decl =>
      have noCtors := List.mem_singleton.mp (List.mem_ite_nil_right.mp listed).2
      rw [(Prod.mk.inj noCtors).2] at isCtor
      exact absurd isCtor List.not_mem_nil
  | customType decl =>
      refine ⟨decl, rfl, ?_⟩
      rcases ((mem_declaredTypes_customType_iff m decl _ ctors).mp listed).2 with
        ⟨all, rfl⟩ | ⟨_, item, dots, span, isFirst, rfl⟩
      · exact ⟨.inl all, isCtor⟩
      · obtain ⟨exposed, itsName⟩ := (distinct.exposedAs?_eq_some_iff _ _).mp isFirst
        cases dots with
        | none => exact absurd isCtor List.not_mem_nil
        | some dots => exact ⟨.inr ⟨item, dots, span, exposed, itsName⟩, isCtor⟩

theorem listed_of_handsOut (distinct : m.DistinctlyNamed) {decl : CustomTypeDecl}
    (handsOut : m.HandsOutCtors decl.name.text) :
    (decl.name.text, decl.ctorNames) ∈ declaredTypes m (.customType decl) := by
  rw [mem_declaredTypes_customType_iff]
  refine ⟨rfl, ?_⟩
  rcases handsOut with all | ⟨item, dots, span, exposed, itsName⟩
  · exact .inl ⟨all, rfl⟩
  · right
    constructor
    · apply Bool.eq_false_iff.mpr
      intro all
      rw [exposedItems_eq_nil all] at exposed
      exact absurd exposed List.not_mem_nil
    · refine ⟨item, some dots, span, ?_, rfl⟩
      exact (distinct.exposedAs?_eq_some_iff _ _).mpr ⟨exposed, itsName⟩

/-- Everything that the interface lists is alive. -/
theorem alive_of_lists (distinct : m.DistinctlyNamed) {space : NameSpace} {name : String}
    (lists : (ofModule m).Lists space name) : ∃ id, m.Denotes space name id ∧ m.Alive id := by
  cases space with
  | value =>
      obtain ⟨⟨declaration, declared, id, introduced⟩, exposed⟩ := (mem_values_iff m name).mp lists
      have denotes := distinct.denotes declared introduced
      refine ⟨id, denotes, Module.IsRoot.alive ?_⟩
      rcases (distinct.exposesValue_iff name).mp exposed with all | ⟨item, isItem, rfl⟩
      · exact .everything all denotes
      · exact .exposedValue isItem denotes
  | type =>
      obtain ⟨ctors, found⟩ := Option.isSome_iff_exists.mp lists
      obtain ⟨declaration, declared, listed⟩ :=
        (distinct.constructorsOf?_eq_some_iff name ctors).mp found
      obtain ⟨id, introduced⟩ := introduces_of_mem_declaredTypes listed
      have denotes := distinct.denotes declared introduced
      refine ⟨id, denotes, Module.IsRoot.alive ?_⟩
      rcases distinct.exposedType_of_listed declared listed with
        all | ⟨item, dots, span, exposed, rfl⟩
      · exact .everything all denotes
      · exact .exposedType exposed denotes
  | ctor =>
      obtain ⟨typeName, ctors, found, isCtor⟩ := lists
      obtain ⟨declaration, declared, listed⟩ :=
        (distinct.constructorsOf?_eq_some_iff typeName ctors).mp found
      obtain ⟨decl, rfl, handsOut, inNames⟩ := distinct.handsOut_of_mem_ctors listed isCtor
      obtain ⟨ctor, isDeclared, rfl⟩ := List.mem_map.mp inNames
      have denotes := distinct.denotes declared (.ctor decl ctor isDeclared)
      refine ⟨_, denotes, Module.IsRoot.alive ?_⟩
      rcases handsOut with all | ⟨item, dots, span, exposed, itsName⟩
      · exact .everything all denotes
      · exact .exposedCtor exposed declared itsName.symm isDeclared

/-- A constructor is listed, under whatever name, only if the module hands out those of its type. -/
theorem handsOut_of_lists_ctor (distinct : m.DistinctlyNamed) {decl : CustomTypeDecl}
    {ctor : CtorDecl} (declared : .customType decl ∈ m.declarations) (isCtor : ctor ∈ decl.ctors)
    (lists : (ofModule m).Lists .ctor ctor.name.text) : m.HandsOutCtors decl.name.text := by
  obtain ⟨typeName, ctors, found, isListed⟩ := lists
  obtain ⟨declaration, otherDeclared, listed⟩ :=
    (distinct.constructorsOf?_eq_some_iff typeName ctors).mp found
  obtain ⟨other, rfl, handsOut, inNames⟩ := distinct.handsOut_of_mem_ctors listed isListed
  obtain ⟨namesake, isDeclared, sameName⟩ := List.mem_map.mp inNames
  have introduced : (Declaration.customType other).Introduces .ctor ctor.name.text
      (.ctor ctor.name.text) := sameName ▸ .ctor other namesake isDeclared
  have same := distinct.declaration_unique otherDeclared introduced declared
    (.ctor decl ctor isCtor)
  cases same
  exact handsOut

end Module.DistinctlyNamed

/-! ### The rule for unused constructors -/

namespace Rule

/-- What the rule for unused constructors reports of one declaration. -/
def constructorReports (m : Module) (usage : Usage) (declaration : Declaration) :
    List Diagnostic :=
  if m.exposesAll then [] else unusedConstructorsOf m usage declaration

theorem checkUnusedConstructor_eq_flatMap (input : LintInput) :
    checkUnusedConstructor input =
      input.tree.declarations.flatMap (constructorReports input.tree input.usage) := by
  unfold checkUnusedConstructor constructorReports
  cases input.tree.exposesAll <;> simp

/-- However little of the type is used, the rule reports none of its constructors. -/
def ExemptsConstructors (m : Module) (decl : CustomTypeDecl) : Prop :=
  ∀ usage, constructorReports m usage (.customType decl) = []

theorem exposesOpenType_iff (m : Module) (typeName : String) :
    exposesOpenType m typeName = true ↔
      ∃ name dots span, .type name (some dots) span ∈ m.exposedItems ∧ name.text = typeName := by
  rw [exposesOpenType, List.any_eq_true]
  constructor
  · rintro ⟨item, exposed, isOpen⟩
    rcases item with _ | _ | ⟨name, _ | dots, span⟩
    · exact absurd isOpen Bool.false_ne_true
    · exact absurd isOpen Bool.false_ne_true
    · exact absurd isOpen Bool.false_ne_true
    · exact ⟨name, dots, span, exposed, of_decide_eq_true isOpen⟩
  · rintro ⟨name, dots, span, exposed, itsName⟩
    exact ⟨_, exposed, decide_eq_true itsName⟩

/-- A type with constructors is left alone exactly when the module hands them out. -/
theorem exemptsConstructors_iff (m : Module) {decl : CustomTypeDecl} (hasCtors : decl.ctors ≠ []) :
    ExemptsConstructors m decl ↔ m.HandsOutCtors decl.name.text := by
  rw [Module.HandsOutCtors, ← exposesOpenType_iff]
  constructor
  · intro exempts
    by_contra keeps
    obtain ⟨notAll, notOpen⟩ := not_or.mp keeps
    -- in a module without a single reference every constructor would be reported
    have reportsAll := exempts ⟨[], []⟩
    simp [constructorReports, unusedConstructorsOf, notAll, notOpen, Usage.isValueUsed,
      hasCtors] at reportsAll
  · rintro (all | isOpen) usage
    · rw [constructorReports, if_pos all]
    · rw [constructorReports, unusedConstructorsOf, if_pos isOpen, ite_self]

end Rule

/-! ### All readings together -/

/-- In a module whose names are declared and exposed once, everything that the interface lists is
alive, and no declaration that it lists is reported as unused. A value or port is listed exactly
when everything or an item for the value is exposed. The constructors of a type are listed, and left
alone by the rule for unused constructors, exactly when everything or the open type is exposed;
otherwise none of them is listed. -/
theorem Module.exposing_readings_agree (m : Module) (distinct : m.DistinctlyNamed) :
    (∀ space name, (Interface.ofModule m).Lists space name →
      (∃ id, m.Denotes space name id ∧ (Usage.ofModule m).isReachable id = true) ∧
      ∀ declaration ∈ m.declarations, ∀ id, declaration.Introduces space name id →
        Rule.reportsUnused (Usage.ofModule m) declaration = false) ∧
    (∀ declaration ∈ m.declarations, ∀ name id, declaration.Introduces .value name id →
      (name ∈ (Interface.ofModule m).values ↔
        m.exposesAll = true ∨ ∃ item, .value item ∈ m.exposedItems ∧ item.text = name)) ∧
    (∀ interfaces, Rule.checkUnusedConstructor (LintInput.ofModule m interfaces) =
      m.declarations.flatMap (Rule.constructorReports m (Usage.ofModule m))) ∧
    ∀ decl, .customType decl ∈ m.declarations → decl.ctors ≠ [] →
      ((Interface.ofModule m).constructorsOf? decl.name.text = some decl.ctorNames ↔
        m.HandsOutCtors decl.name.text) ∧
      (Rule.ExemptsConstructors m decl ↔ m.HandsOutCtors decl.name.text) ∧
      (¬ m.HandsOutCtors decl.name.text →
        ∀ ctor ∈ decl.ctors, ¬ (Interface.ofModule m).Lists .ctor ctor.name.text) := by
  refine ⟨?_, ?_, fun _ => Rule.checkUnusedConstructor_eq_flatMap _, ?_⟩
  · intro space name lists
    obtain ⟨id, denotes, alive⟩ := distinct.alive_of_lists lists
    refine ⟨⟨id, denotes, (Usage.isReachable_iff_alive m id).mpr alive⟩, ?_⟩
    intro declaration declared other introduced
    have isMeant := distinct.denotes declared introduced
    obtain rfl : id = other :=
      LastOf.unique (fun _ _ _ first second => first.unique second) denotes isMeant
    simpa using keeps_introducing alive declared introduced
  · intro declaration declared name id introduced
    rw [Interface.mem_values_iff, distinct.exposesValue_iff]
    exact and_iff_right ⟨declaration, declared, id, introduced⟩
  · intro decl declared hasCtors
    refine ⟨?_, Rule.exemptsConstructors_iff m hasCtors, ?_⟩
    · constructor
      · intro found
        obtain ⟨ctor, isCtor⟩ := List.exists_mem_of_ne_nil decl.ctors hasCtors
        apply distinct.handsOut_of_lists_ctor declared isCtor
        exact ⟨decl.name.text, decl.ctorNames, found, List.mem_map.mpr ⟨ctor, isCtor, rfl⟩⟩
      · intro handsOut
        apply (distinct.constructorsOf?_eq_some_iff _ _).mpr
        exact ⟨_, declared, distinct.listed_of_handsOut handsOut⟩
    · intro keeps ctor isCtor lists
      exact keeps (distinct.handsOut_of_lists_ctor declared isCtor lists)

def Module.messages : CustomTypeDecl :=
  ⟨⟨"Msg", default⟩, [],
    [⟨⟨"Increment", default⟩, [], default⟩, ⟨⟨"Reset", default⟩, [], default⟩], default⟩

def Module.cache : CustomTypeDecl :=
  ⟨⟨"Cache", default⟩, [], [⟨⟨"Cached", default⟩, [], default⟩], default⟩

/-- Hands out a function, a record and a type with its constructors, and keeps another type to
itself. -/
def Module.counter : Module where
  header := some ⟨.plain, ⟨"Counter", default⟩,
    .explicit [.type ⟨"Msg", default⟩ (some default) default, .type ⟨"Model", default⟩ none default,
      .value ⟨"update", default⟩, .operator ⟨"|+", default⟩] default, default⟩
  imports := []
  declarations := [
    .customType messages,
    .customType cache,
    .typeAlias ⟨⟨"Model", default⟩, [], .record none [] default, default⟩,
    .value ⟨none, ⟨"update", default⟩, [], .unit default, default⟩,
    .operator ⟨⟨"|+", default⟩, ⟨"update", default⟩, default⟩]
  span := default

theorem Module.counter_exposing_readings_agree :
    counter.DistinctlyNamed ∧
    (Interface.ofModule counter).constructorsOf? "Msg" = some ["Increment", "Reset"] ∧
    (Usage.ofModule counter).isReachable (.ctor "Reset") = true ∧
    Rule.ExemptsConstructors counter messages ∧
    "update" ∈ (Interface.ofModule counter).values ∧
    ¬ Rule.ExemptsConstructors counter cache ∧
    ¬ (Interface.ofModule counter).Lists .ctor "Cached" := by
  have distinct : counter.DistinctlyNamed := {
    declaredOnce := by
      intro space
      cases space <;> decide
    exposedOnce := by decide
    typesApart := by decide }
  obtain ⟨listedAlive, valueListed, _, typeListed⟩ := exposing_readings_agree counter distinct
  obtain ⟨listsAll, exempts, _⟩ := typeListed messages (List.mem_cons_self ..) (by decide)
  obtain ⟨_, exemptsCache, listsNone⟩ :=
    typeListed cache (List.mem_cons_of_mem _ (List.mem_cons_self ..)) (by decide)
  have handsOut : counter.HandsOutCtors "Msg" :=
    .inr ⟨_, _, _, List.mem_cons_self .., rfl⟩
  have keepsCache : ¬ counter.HandsOutCtors "Cache" := by
    rw [HandsOutCtors, ← Rule.exposesOpenType_iff]
    decide
  have found := listsAll.mpr handsOut
  have updateListed := (valueListed (.value ⟨none, ⟨"update", default⟩, [], .unit default, default⟩)
    (by simp [counter]) "update" _ (.value _)).mpr (.inr ⟨⟨"update", default⟩, by decide, rfl⟩)
  obtain ⟨⟨id, denotes, resetAlive⟩, _⟩ :=
    listedAlive .ctor "Reset" ⟨"Msg", messages.ctorNames, found, by decide⟩
  have isReset : id = .ctor "Reset" := by
    rw [← Scope.find?_eq_some_iff] at denotes
    exact (Option.some.inj denotes).symm
  exact ⟨distinct, found, isReset ▸ resetAlive, exempts.mpr handsOut, updateListed,
    fun exempt => keepsCache (exemptsCache.mp exempt),
    listsNone keepsCache _ (List.mem_cons_self ..)⟩

end ElmDiagnostics
