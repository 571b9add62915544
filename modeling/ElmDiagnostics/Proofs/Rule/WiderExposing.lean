import ElmDiagnostics.Proofs.Usage.ReferenceGraph
import ElmDiagnostics.Rule.RuleSet
import Mathlib.Data.List.Flatten
import Mathlib.Data.List.InsertIdx

/-!
Contract: a module that exposes more has no more dead code.

Owns: adding an item to an exposing list; that roots, and with them what is alive, only grow when a
module exposes more; and that each rule for dead code then reports a part of what it reported.

Does not own: which declarations an item keeps alive.

Whatever an item names, the name tables and the reference graph come from the declarations alone. So
the list of items matters in two places only: in the roots, and where a type is open.
-/

set_option autoImplicit false

namespace ElmDiagnostics

/-! ### Exposing more -/

/-- The header with one item more at a place of its exposing list. -/
def ModuleHeader.exposingAt (header : ModuleHeader) (place : Nat) (item : ExposedItem) :
    ModuleHeader :=
  match header.exposing with
  | .explicit items span => { header with exposing := .explicit (items.insertIdx place item) span }
  | .all _ => header

namespace Module

/-- The module with one item more at a place of its exposing list. Where everything is exposed there
is no list, and the module stays as it is. -/
def exposingAt (m : Module) (place : Nat) (item : ExposedItem) : Module :=
  { m with header := m.header.map fun header => header.exposingAt place item }

/-- The modules differ in their exposing lists at most, and the second one lists what the first one
lists. -/
structure ExposesLess (narrow wide : Module) : Prop where
  sameDeclarations : wide.declarations = narrow.declarations
  sameKind : wide.kind = narrow.kind
  sameExposesAll : wide.exposesAll = narrow.exposesAll
  keepsItems : narrow.exposedItems ⊆ wide.exposedItems

theorem exposesLess_exposingAt (m : Module) (place : Nat) (item : ExposedItem) :
    m.ExposesLess (m.exposingAt place item) := by
  obtain ⟨header, imports, declarations, span⟩ := m
  cases header with
  | none => exact ⟨rfl, rfl, rfl, List.Subset.refl _⟩
  | some header =>
      obtain ⟨kind, name, exposing, headerSpan⟩ := header
      cases exposing with
      | all clause => exact ⟨rfl, rfl, rfl, List.Subset.refl _⟩
      | explicit items clause => exact ⟨rfl, rfl, rfl, List.subset_insertIdx items place item⟩

namespace ExposesLess

variable {narrow wide : Module}

theorem sameScope (less : narrow.ExposesLess wide) :
    Scope.ofModule wide = Scope.ofModule narrow := by
  simp only [Scope.ofModule, less.sameDeclarations]

theorem sameEdges (less : narrow.ExposesLess wide) : wide.edges = narrow.edges := by
  rw [edges, edges, less.sameScope, less.sameDeclarations]

theorem sameReferences (less : narrow.ExposesLess wide) : wide.references = narrow.references := by
  rw [references, references, less.sameDeclarations]

theorem exposedRoots_subset (less : narrow.ExposesLess wide) (scope : Scope) :
    narrow.exposedRoots scope ⊆ wide.exposedRoots scope := by
  unfold exposedRoots
  rw [less.sameExposesAll]
  split
  · exact List.Subset.refl _
  · intro id isRoot
    obtain ⟨item, exposed, keepsAlive⟩ := List.mem_flatMap.mp isRoot
    exact List.mem_flatMap.mpr ⟨item, less.keepsItems exposed, keepsAlive⟩

/-- The roots that do not come from the exposing list are the same. -/
theorem roots_subset (less : narrow.ExposesLess wide) : narrow.roots ⊆ wide.roots := by
  have samePorts : wide.portDecls = narrow.portDecls := by
    rw [portDecls, portDecls, less.sameDeclarations]
  intro id isRoot
  simp only [roots, less.sameScope, less.sameKind, samePorts]
  rcases List.mem_append.mp isRoot with isExposed | isOther
  · exact List.mem_append_left _ (less.exposedRoots_subset _ isExposed)
  · exact List.mem_append_right _ isOther

/-- What is alive stays alive. -/
theorem keepsAlive (less : narrow.ExposesLess wide) (id : DeclId)
    (alive : (Usage.ofModule narrow).isReachable id = true) :
    (Usage.ofModule wide).isReachable id = true := by
  rw [Usage.isReachable, decide_eq_true_iff] at alive ⊢
  have reached := (mem_reachable_iff narrow.edges narrow.roots id).mp alive
  apply (mem_reachable_iff wide.edges wide.roots id).mpr
  rw [less.sameEdges]
  apply reached.mono fun edge isEdge => isEdge
  intro root isRoot
  exact .start (less.roots_subset isRoot)

theorem sameValueUsed (less : narrow.ExposesLess wide) (name : String) :
    (Usage.ofModule wide).isValueUsed name = (Usage.ofModule narrow).isValueUsed name := by
  simp only [Usage.isValueUsed, Usage.ofModule, less.sameReferences]

theorem keepsOpenTypes (less : narrow.ExposesLess wide) (typeName : String)
    (isOpen : Rule.exposesOpenType narrow typeName = true) :
    Rule.exposesOpenType wide typeName = true := by
  obtain ⟨item, exposed, opens⟩ := List.any_eq_true.mp isOpen
  exact List.any_eq_true.mpr ⟨item, less.keepsItems exposed, opens⟩

end ExposesLess

end Module

/-! ### Reports that remain -/

namespace Rule

/-- What is spared before is spared after, and what is not spared gives a part of its reports. -/
theorem sublist_of_sparesMore {before after : Bool} (sparesMore : before = true → after = true)
    {remaining reports : List Diagnostic} (isPart : remaining.Sublist reports) :
    (if after then [] else remaining).Sublist (if before then [] else reports) := by
  cases before with
  | true =>
      rw [sparesMore rfl]
      exact .refl _
  | false =>
      split
      · exact List.nil_sublist _
      · exact isPart

variable {narrow wide : Module}

theorem unusedTopLevelOf_sublist (less : narrow.ExposesLess wide) (declaration : Declaration) :
    (unusedTopLevelOf (.ofModule wide) declaration).Sublist
      (unusedTopLevelOf (.ofModule narrow) declaration) := by
  cases declaration with
  | value decl => exact sublist_of_sparesMore (less.keepsAlive _) (.refl _)
  | customType decl => exact sublist_of_sparesMore (less.keepsAlive _) (.refl _)
  | typeAlias | port | operator => exact .refl _

theorem unusedTypeAliasOf_sublist (less : narrow.ExposesLess wide) (declaration : Declaration) :
    (unusedTypeAliasOf (.ofModule wide) declaration).Sublist
      (unusedTypeAliasOf (.ofModule narrow) declaration) := by
  cases declaration with
  | typeAlias decl => exact sublist_of_sparesMore (less.keepsAlive _) (.refl _)
  | value | customType | port | operator => exact .refl _

/-- Constructors are judged by occurrence, which the exposing list does not touch. Only the types
that are spared as a whole become more. -/
theorem unusedConstructorsOf_sublist (less : narrow.ExposesLess wide) (declaration : Declaration) :
    (unusedConstructorsOf wide (.ofModule wide) declaration).Sublist
      (unusedConstructorsOf narrow (.ofModule narrow) declaration) := by
  cases declaration with
  | customType decl =>
      simp only [unusedConstructorsOf, less.sameValueUsed]
      exact sublist_of_sparesMore (less.keepsOpenTypes _) (.refl _)
  | value | typeAlias | port | operator => exact .refl _

/-- Rules that go through the declarations report a part if they do for each declaration. -/
theorem flatMap_declarations_sublist (less : narrow.ExposesLess wide)
    {remaining reports : Declaration → List Diagnostic}
    (each : ∀ declaration, (remaining declaration).Sublist (reports declaration)) :
    (wide.declarations.flatMap remaining).Sublist (narrow.declarations.flatMap reports) := by
  rw [less.sameDeclarations]
  exact List.Sublist.flatMap_right _ fun declaration _ => each declaration

/-- The rules for declarations that nothing uses. -/
def deadCodeRules : List Rule := [.unusedTopLevel, .unusedTypeAlias, .unusedConstructor]

/-- Whatever item is added to an exposing list, and wherever, each rule for dead code reports a part
of what it reported before, in the same order. -/
theorem exposing_more_only_drops_reports (m : Module) (place : Nat) (item : ExposedItem)
    (interfaces : Table String Interface) :
    ∀ rule ∈ deadCodeRules, ∃ remaining reports,
      rule.check (.ofModule (m.exposingAt place item) interfaces) = .ok remaining ∧
      rule.check (.ofModule m interfaces) = .ok reports ∧ remaining.Sublist reports := by
  have less := m.exposesLess_exposingAt place item
  intro rule isDeadCodeRule
  simp only [deadCodeRules, List.mem_cons, List.not_mem_nil, or_false] at isDeadCodeRule
  rcases isDeadCodeRule with rfl | rfl | rfl
  · exact ⟨_, _, rfl, rfl, flatMap_declarations_sublist less (unusedTopLevelOf_sublist less)⟩
  · exact ⟨_, _, rfl, rfl, flatMap_declarations_sublist less (unusedTypeAliasOf_sublist less)⟩
  · refine ⟨_, _, rfl, rfl, sublist_of_sparesMore less.sameExposesAll.trans ?_⟩
    exact flatMap_declarations_sublist less (unusedConstructorsOf_sublist less)

/-- Exposes a function and keeps a type to itself, whose constructors occur nowhere. -/
def sealedMessages : Module where
  header := some
    ⟨.plain, ⟨"Counter", default⟩, .explicit [.value ⟨"update", default⟩] default, default⟩
  imports := []
  declarations := [
    .customType ⟨⟨"Msg", default⟩, [],
      [⟨⟨"Increment", default⟩, [], default⟩, ⟨⟨"Reset", default⟩, [], default⟩], default⟩,
    .value ⟨none, ⟨"update", default⟩, [], .unit default, default⟩]
  span := default

theorem opening_messages_drops_reports :
    unusedConstructor ∈ deadCodeRules ∧ ∃ remaining reports,
      unusedConstructor.check (.ofModule (sealedMessages.exposingAt 1
        (.type ⟨"Msg", default⟩ (some default) default)) ∅) = .ok remaining ∧
      unusedConstructor.check (.ofModule sealedMessages ∅) = .ok reports ∧
      remaining.Sublist reports ∧ remaining.length = 0 ∧ reports.length = 2 := by
  have isDeadCodeRule : unusedConstructor ∈ deadCodeRules := by decide
  obtain ⟨remaining, reports, checkedAfter, checkedBefore, isPart⟩ :=
    exposing_more_only_drops_reports sealedMessages 1
      (.type ⟨"Msg", default⟩ (some default) default) ∅ unusedConstructor isDeadCodeRule
  refine ⟨isDeadCodeRule, remaining, reports, checkedAfter, checkedBefore, isPart, ?_, ?_⟩
  · cases checkedAfter
    decide
  · cases checkedBefore
    decide

end Rule

end ElmDiagnostics
