import ElmDiagnostics.Proofs.Rule.ExposedNames
import ElmDiagnostics.Proofs.Rule.UnusedNames
import ElmDiagnostics.Proofs.Workspace.SharedNames

/-!
Contract: an import that exposes a type with its constructors is judged by what the imported module
hands out.

Owns: the constructors that a module hands out with a type, read off its text; that its interface
has exactly these; where the interfaces of a folder come from; and when an open type of an import is
reported.

Does not own: what it means for a name to occur.

Three parties meet here: the importing module, in which names occur; the folder, which may or may
not know the imported module; and the imported module, whose header decides which constructors come
along.
-/

set_option autoImplicit false

namespace ElmDiagnostics

/-! ### The constructors that come with a type -/

namespace Declaration

/-- The name of the type that the declaration declares, be it a custom type or an alias. -/
def typeName? : Declaration → Option String
  | .typeAlias decl => some decl.name.text
  | .customType decl => some decl.name.text
  | _ => none

/-- The constructors of a custom type; an alias has none. -/
def ctorNames : Declaration → List String
  | .customType decl => decl.ctorNames
  | _ => []

end Declaration

namespace Module

/-- The last declaration of a type of that name. -/
def typeDecl? (m : Module) (typeName : String) : Option Declaration :=
  (m.declarations.filter fun declaration => declaration.typeName? = some typeName).getLast?

/-- Everything is exposed, or the type is with its constructors. Among several items of its name the
first one counts. -/
def opensType (m : Module) (typeName : String) : Bool :=
  m.exposesAll ||
    match m.exposedItems.find? fun item => item.name.text = typeName with
    | some (.type _ (some _) _) => true
    | _ => false

/-- The constructors that an importing module gets with the type. -/
def exportedCtors (m : Module) (typeName : String) : List String :=
  if m.opensType typeName then ((m.typeDecl? typeName).map Declaration.ctorNames).getD [] else []

theorem opensType_iff (m : Module) (typeName : String) :
    m.opensType typeName = true ↔ m.exposesAll = true ∨
      ∃ name dots span, Interface.exposedAs? m typeName = some (.type name (some dots) span) := by
  rw [opensType, Bool.or_eq_true]
  apply or_congr_right
  constructor
  · intro isOpen
    split at isOpen
    next name dots span found => exact ⟨name, dots, span, found⟩
    next => exact absurd isOpen Bool.false_ne_true
  · rintro ⟨name, dots, span, found⟩
    rw [Interface.exposedAs?] at found
    rw [found]

/-- No two items that the module lists, and no two types that it declares, have this name. -/
structure NamesTypeOnce (m : Module) (typeName : String) : Prop where
  listed : (m.exposedItems.filter fun item => item.name.text = typeName).length ≤ 1
  declared :
    (m.declarations.filter fun declaration => declaration.typeName? = some typeName).length ≤ 1

/-- The module hands out the type with its constructors, and this is one of them. -/
def HandsOutCtor (m : Module) (typeName ctor : String) : Prop :=
  m.HandsOutCtors typeName ∧
    ∃ decl, .customType decl ∈ m.declarations ∧ decl.name.text = typeName ∧ ctor ∈ decl.ctorNames

theorem filter_eq_singleton {α : Type} {items : List α} {keep : α → Bool} {item : α}
    (once : (items.filter keep).length ≤ 1) (isItem : item ∈ items) (isKept : keep item = true) :
    items.filter keep = [item] := by
  have member : item ∈ items.filter keep := List.mem_filter.mpr ⟨isItem, isKept⟩
  obtain ⟨only, isOnly⟩ :=
    List.length_eq_one_iff.mp (Nat.le_antisymm once (List.length_pos_of_mem member))
  rw [isOnly] at member ⊢
  rw [List.mem_singleton.mp member]

theorem NamesTypeOnce.opensType_iff_handsOutCtors {m : Module} {typeName : String}
    (once : m.NamesTypeOnce typeName) :
    m.opensType typeName = true ↔ m.HandsOutCtors typeName := by
  rw [opensType_iff, HandsOutCtors]
  apply or_congr_right
  constructor
  · rintro ⟨name, dots, span, found⟩
    have isNamed := List.find?_some found
    exact ⟨name, dots, span, List.mem_of_find?_eq_some found, of_decide_eq_true isNamed⟩
  · rintro ⟨name, dots, span, listed, isNamed⟩
    have only := filter_eq_singleton once.listed listed (decide_eq_true isNamed)
    refine ⟨name, dots, span, ?_⟩
    rw [Interface.exposedAs?, ← List.head?_filter, only, List.head?_singleton]

theorem NamesTypeOnce.typeDecl?_eq_some_iff {m : Module} {typeName : String}
    (once : m.NamesTypeOnce typeName) (declaration : Declaration) :
    m.typeDecl? typeName = some declaration ↔
      declaration ∈ m.declarations ∧ declaration.typeName? = some typeName := by
  constructor
  · intro found
    have member := List.mem_filter.mp (List.mem_of_getLast? found)
    exact ⟨member.1, of_decide_eq_true member.2⟩
  · rintro ⟨declared, isNamed⟩
    have only := filter_eq_singleton once.declared declared (decide_eq_true isNamed)
    rw [typeDecl?, only, List.getLast?_singleton]

theorem NamesTypeOnce.mem_exportedCtors_iff {m : Module} {typeName : String}
    (once : m.NamesTypeOnce typeName) (ctor : String) :
    ctor ∈ m.exportedCtors typeName ↔ m.HandsOutCtor typeName ctor := by
  rw [exportedCtors, List.mem_ite_nil_right, once.opensType_iff_handsOutCtors, HandsOutCtor]
  apply and_congr_right
  intro _
  constructor
  · intro isCtor
    cases found : m.typeDecl? typeName with
    | none =>
        rw [found] at isCtor
        exact absurd isCtor List.not_mem_nil
    | some declaration =>
        rw [found] at isCtor
        obtain ⟨declared, isNamed⟩ := (once.typeDecl?_eq_some_iff declaration).mp found
        cases declaration with
        | customType decl => exact ⟨decl, declared, Option.some.inj isNamed, isCtor⟩
        | _ => exact absurd isCtor List.not_mem_nil
  · rintro ⟨decl, declared, isNamed, isCtor⟩
    have found := (once.typeDecl?_eq_some_iff (.customType decl)).mpr
      ⟨declared, congrArg some isNamed⟩
    rw [found]
    exact isCtor

end Module

namespace Interface

theorem typeName?_of_mem_declaredTypes {m : Module} {declaration : Declaration} {name : String}
    {ctors : List String} (listed : (name, ctors) ∈ declaredTypes m declaration) :
    declaration.typeName? = some name := by
  obtain ⟨id, introduced⟩ := introduces_of_mem_declaredTypes listed
  cases introduced <;> rfl

/-- A type that is not handed out openly has no constructors in the interface. -/
theorem ctors_eq_nil_of_closed {m : Module} {declaration : Declaration} {name : String}
    {ctors : List String} (closed : ¬ m.opensType name = true)
    (listed : (name, ctors) ∈ declaredTypes m declaration) : ctors = [] := by
  rw [Module.opensType_iff] at closed
  cases declaration with
  | customType decl =>
      rw [mem_declaredTypes_customType_iff] at listed
      obtain ⟨rfl, ⟨all, _⟩ | ⟨_, item, dots, span, found, rfl⟩⟩ := listed
      · exact absurd (.inl all) closed
      · cases dots with
        | none => rfl
        | some dots => exact absurd (.inr ⟨item, dots, span, found⟩) closed
  | typeAlias decl =>
      obtain ⟨_, isAlias⟩ := List.mem_ite_nil_right.mp listed
      exact (Prod.mk.inj (List.mem_singleton.mp isAlias)).2
  | _ => exact absurd listed List.not_mem_nil

/-- A type that is handed out openly is added with its constructors. -/
theorem declaredTypes_of_open {m : Module} {declaration : Declaration} {name : String}
    (isOpen : m.opensType name = true) (isNamed : declaration.typeName? = some name) :
    declaredTypes m declaration = [(name, declaration.ctorNames)] := by
  rw [Module.opensType_iff] at isOpen
  cases declaration with
  | customType decl =>
      obtain rfl : decl.name.text = name := Option.some.inj isNamed
      rcases isOpen with all | ⟨item, dots, span, found⟩
      · simp [declaredTypes, all, Declaration.ctorNames, CustomTypeDecl.ctorNames]
      · simp [declaredTypes, found, Declaration.ctorNames, CustomTypeDecl.ctorNames]
  | typeAlias decl =>
      obtain rfl : decl.name.text = name := Option.some.inj isNamed
      refine if_pos (Bool.or_eq_true_iff.mpr (isOpen.imp_right ?_))
      rintro ⟨item, dots, span, found⟩
      rw [found, Option.isSome_some]
  | _ => exact absurd isNamed (by simp [Declaration.typeName?])

/-- Of several declarations of a type that is handed out openly, the interface has the last. -/
theorem latest_declaredTypes_of_open {m : Module} {name : String} (isOpen : m.opensType name = true)
    (declarations : List Declaration) :
    latest (declarations.flatMap (declaredTypes m)) name =
      ((declarations.filter fun declaration => declaration.typeName? = some name).getLast?).map
        Declaration.ctorNames := by
  induction declarations using List.reverseRecOn with
  | nil => rfl
  | append_singleton declarations last inductionHypothesis =>
      rw [List.flatMap_append, List.flatMap_singleton, latest_append, inductionHypothesis,
        List.filter_append]
      by_cases isNamed : last.typeName? = some name
      · rw [declaredTypes_of_open isOpen isNamed, latest_singleton]
        simp [isNamed]
      · have added : latest (declaredTypes m last) name = none := by
          rw [latest_eq_none_iff]
          intro ctors listed
          exact isNamed (typeName?_of_mem_declaredTypes listed)
        simp [added, isNamed]

/-- The interface of a module has the constructors that the module hands out with a type, and no
others. -/
theorem constructorsOf?_ofModule (m : Module) (typeName : String) :
    ((ofModule m).constructorsOf? typeName).getD [] = m.exportedCtors typeName := by
  show ((Table.ofList (m.declarations.flatMap (declaredTypes m))).get? typeName).getD [] = _
  rw [Table.get?_ofList, Module.exportedCtors]
  split
  next isOpen => rw [latest_declaredTypes_of_open isOpen, Module.typeDecl?]
  next closed =>
    cases found : latest (m.declarations.flatMap (declaredTypes m)) typeName with
    | none => rfl
    | some ctors =>
        obtain ⟨declaration, _, listed⟩ := List.mem_flatMap.mp (mem_of_latest_eq_some found)
        exact ctors_eq_nil_of_closed closed listed

end Interface

/-! ### Where interfaces come from -/

namespace Folder

/-- What can be done to a folder: trees come and go, and modules without a tree are registered. -/
inductive Update where
  | tree (operation : Operation)
  | interface (interface : Interface)

def apply (folder : Folder) : Update → Folder
  | .tree operation => folder.perform operation
  | .interface interface => folder.insertInterface interface

def applyAll (folder : Folder) (updates : List Update) : Folder := updates.foldl apply folder

/-- The interface is that of a tree that the folder holds, or it was registered as it is. -/
def ComesFrom (folder : Folder) (updates : List Update) (interface : Interface) : Prop :=
  (∃ uri tree, folder.tree? uri = some tree ∧ interface = .ofModule tree) ∨
    .interface interface ∈ updates

/-- Whatever interface the folder knows under a name is of that name, and it is known where it comes
from. -/
def Sourced (folder : Folder) (updates : List Update) : Prop :=
  ∀ name interface, folder.interface? name = some interface →
    interface.name = name ∧ folder.ComesFrom updates interface

/-- A tree that leaves takes the interface of its name along, so an interface that stays has kept
its tree. -/
theorem Sourced.perform {folder : Folder} {updates : List Update}
    (sourced : folder.Sourced updates) (operation : Operation) :
    (folder.perform operation).Sourced (updates ++ [.tree operation]) := by
  intro name interface known
  rw [interface?_perform_eq_some_iff] at known
  rcases known with ⟨uri, tree, rfl, rfl, rfl⟩ | ⟨_, knownBefore, stays⟩
  · refine ⟨rfl, .inl ⟨uri, tree, ?_, rfl⟩⟩
    rw [Folder.perform, tree?_insert, if_pos rfl]
  · obtain ⟨isNamed, ⟨uri, tree, held, rfl⟩ | registered⟩ := sourced name interface knownBefore
    · refine ⟨isNamed, .inl ⟨uri, tree, ?_, rfl⟩⟩
      have isOther : uri ≠ operation.uri := by
        rintro rfl
        exact stays ⟨tree, held, isNamed⟩
      rw [tree?_perform_of_ne isOther, held]
    · exact ⟨isNamed, .inr (List.mem_append_left _ registered)⟩

theorem Sourced.insertInterface {folder : Folder} {updates : List Update}
    (sourced : folder.Sourced updates) (interface : Interface) :
    (folder.insertInterface interface).Sourced (updates ++ [.interface interface]) := by
  intro name other known
  have lookup := folder.interfaces.get?_insert interface.name name interface
  rw [interface?, Folder.insertInterface, lookup] at known
  split at known
  next isName =>
    obtain rfl := Option.some.inj known
    exact ⟨isName.symm, .inr (by simp)⟩
  next =>
    obtain ⟨isNamed, ⟨uri, tree, held, rfl⟩ | registered⟩ := sourced name other known
    · exact ⟨isNamed, .inl ⟨uri, tree, held, rfl⟩⟩
    · exact ⟨isNamed, .inr (List.mem_append_left _ registered)⟩

theorem sourced_applyAll (root : String) (updates : List Update) :
    ((new root).applyAll updates).Sourced updates := by
  induction updates using List.reverseRecOn with
  | nil =>
      intro name interface known
      exact absurd known (by simp [applyAll, new, interface?])
  | append_singleton updates last inductionHypothesis =>
      rw [applyAll, List.foldl_append]
      cases last with
      | tree operation => exact inductionHypothesis.perform operation
      | interface interface => exact inductionHypothesis.insertInterface interface

end Folder

/-! ### The verdict -/

/-- Something of an open type is needed: the type occurs, as a type or as a value, or one of the
constructors that come with it does. -/
def Module.Needs (m : Module) (typeName : String) (ctors : List String) : Prop :=
  m.TypeOccurs typeName ∨ m.ValueOccurs typeName ∨ ∃ ctor ∈ ctors, m.ValueOccurs ctor

/-- The items that an import lists. -/
def Import.exposedItems (decl : Import) : List ExposedItem :=
  (decl.exposing.map Exposing.items).getD []

namespace Rule

theorem isImportedTypeUsed_iff_needs (m : Module) (typeName : String) (ctors : List String) :
    isImportedTypeUsed (.ofModule m) typeName ctors = true ↔ m.Needs typeName ctors := by
  rw [isImportedTypeUsed, Bool.or_eq_true, Bool.or_eq_true, List.any_eq_true,
    Usage.isTypeUsed_iff_occurs, Usage.isValueUsed_iff_occurs, or_assoc, Module.Needs]
  simp only [Usage.isValueUsed_iff_occurs]

theorem unusedItem_of_unknown {input : LintInput} {moduleName : String}
    (unknown : input.interfaces.get? moduleName = none) (name : Name) (dots span : Span) :
    unusedItem input moduleName (.type name (some dots) span) = [] := by
  simp [unusedItem, unknown]

theorem unusedItem_of_known (m : Module) {interfaces : Table String Interface} {moduleName : String}
    {interface : Interface} (known : interfaces.get? moduleName = some interface) (name : Name)
    (dots span : Span) :
    unusedItem (.ofModule m interfaces) moduleName (.type name (some dots) span) =
      if isImportedTypeUsed (.ofModule m) name.text
          ((interface.constructorsOf? name.text).getD []) then []
      else [(Subject.exposedItem (.type name (some dots) span)).report] := by
  simp only [unusedItem, LintInput.ofModule, known, Option.isSome_some, if_true, Option.map_some]
  rfl

theorem checkUnusedImportedValue_eq_flatMap (input : LintInput) :
    checkUnusedImportedValue input =
      input.tree.imports.flatMap fun decl =>
        decl.exposedItems.flatMap (unusedItem input decl.name.text) := by
  refine List.flatMap_congr ?_
  intro decl _
  unfold unusedItemsOf Import.exposedItems
  cases decl.exposing <;> rfl

/-- The open types of imports are judged exactly, item by item. An item of a module that the folder
does not know is left alone. Any other item is reported unless the type, or one of the constructors
that the interface has for it, is needed. The interface is known by the module's own name and comes
from a tree that the folder holds or was registered as it is. One that is read off a tree has the
constructors that this module hands out with the type, if the module names it once, so that a
mention of any of them keeps the item. -/
theorem open_type_imports_judged_exactly (m : Module) (root : String)
    (updates : List Folder.Update) :
    let folder := (Folder.new root).applyAll updates
    let input := LintInput.ofModule m folder.interfaces
    unusedImportedValue.check input =
        .ok (m.imports.flatMap fun decl =>
          decl.exposedItems.flatMap (unusedItem input decl.name.text)) ∧
      ∀ (moduleName : String) (name : Name) (dots span : Span),
        let item : ExposedItem := .type name (some dots) span
        let reports := unusedItem input moduleName item
        (folder.interface? moduleName = none → reports = []) ∧
          ∀ interface, folder.interface? moduleName = some interface →
            let ctors := (interface.constructorsOf? name.text).getD []
            (reports = [(Subject.exposedItem item).report] ↔ ¬ m.Needs name.text ctors) ∧
              (reports = [] ↔ m.Needs name.text ctors) ∧
              interface.name = moduleName ∧ folder.ComesFrom updates interface ∧
              ∀ tree, interface = .ofModule tree → tree.NamesTypeOnce name.text →
                (∀ ctor, ctor ∈ ctors ↔ tree.HandsOutCtor name.text ctor) ∧
                  ∀ ctor, tree.HandsOutCtor name.text ctor → m.ValueOccurs ctor → reports = [] := by
  intro folder input
  refine ⟨congrArg Except.ok (checkUnusedImportedValue_eq_flatMap input), ?_⟩
  intro moduleName name dots span item reports
  refine ⟨fun (unknown : input.interfaces.get? moduleName = none) =>
    unusedItem_of_unknown unknown name dots span, ?_⟩
  intro interface known ctors
  have verdict : reports = if isImportedTypeUsed (.ofModule m) name.text ctors then []
      else [(Subject.exposedItem item).report] := unusedItem_of_known m known name dots span
  have needed := isImportedTypeUsed_iff_needs m name.text ctors
  have keptIffNeeded : reports = [] ↔ m.Needs name.text ctors := by
    rw [verdict, ← needed]
    cases isImportedTypeUsed (.ofModule m) name.text ctors <;> simp
  obtain ⟨isNamed, comesFrom⟩ := Folder.sourced_applyAll root updates moduleName interface known
  refine ⟨?_, keptIffNeeded, isNamed, comesFrom, ?_⟩
  · rw [verdict, ← needed]
    cases isImportedTypeUsed (.ofModule m) name.text ctors <;> simp
  · rintro tree rfl once
    have handedOut : ∀ ctor, ctor ∈ ctors ↔ tree.HandsOutCtor name.text ctor := by
      intro ctor
      rw [← once.mem_exportedCtors_iff, ← Interface.constructorsOf?_ofModule]
    refine ⟨handedOut, ?_⟩
    intro ctor isHandedOut occurs
    exact keptIffNeeded.mpr (.inr (.inr ⟨ctor, (handedOut ctor).mpr isHandedOut, occurs⟩))

end Rule

/-! ### A module of shapes and its importers -/

def ExposedItem.openShape : ExposedItem := .type ⟨"Shape", default⟩ (some default) default

namespace Declaration

/-- A value that is the circle. -/
def circle : Declaration :=
  .value ⟨none, ⟨"main", default⟩, [], .ctor ⟨none, ⟨"Circle", default⟩, default⟩, default⟩

/-- An operator that stands for the name of the type. -/
def shapeOperator : Declaration := .operator ⟨⟨"|+", default⟩, ⟨"Shape", default⟩, default⟩

end Declaration

namespace Module

/-- The module `Shape` with a type of that name, exposed with its constructor. -/
def shapes : Module where
  header := some ⟨.plain, ⟨"Shape", default⟩, .explicit [.openShape] default, default⟩
  imports := []
  declarations := [
    .customType ⟨⟨"Shape", default⟩, [], [⟨⟨"Circle", default⟩, [], default⟩], default⟩]
  span := default

/-- A module that imports the type openly and has one declaration. -/
def drawing (declaration : Declaration) : Module where
  header := none
  imports := [⟨⟨"Shape", default⟩, none, some (.explicit [.openShape] default), default⟩]
  declarations := [declaration]
  span := default

theorem valueOccurs_drawing_circle : (drawing .circle).ValueOccurs "Circle" := by
  have holds : (drawing .circle).Holds (.expr (.ctor ⟨none, ⟨"Circle", default⟩, default⟩)) :=
    holds_part (List.mem_singleton_self _) (List.mem_singleton_self _)
  exact .name rfl rfl (.ctor holds)

theorem not_holds_drawing_shapeOperator (node : Node) : ¬ (drawing .shapeOperator).Holds node := by
  rintro ⟨declaration, declared, part, isPart, _⟩
  obtain rfl := List.mem_singleton.mp declared
  exact absurd isPart List.not_mem_nil

end Module

/-- The module of shapes comes into a folder. -/
def Folder.Update.shapes : Folder.Update :=
  .tree (.insert ⟨"file:///project/src/Shape.elm"⟩ .shapes)

namespace Rule

theorem circle_keeps_open_import :
    let folder := (Folder.new "/project").applyAll [.shapes]
    let m := Module.drawing .circle
    folder.interface? "Shape" = some (.ofModule .shapes) ∧
      ¬ m.TypeOccurs "Shape" ∧ ¬ m.ValueOccurs "Shape" ∧ Module.shapes.NamesTypeOnce "Shape" ∧
      Module.shapes.HandsOutCtor "Shape" "Circle" ∧ m.ValueOccurs "Circle" ∧
      unusedItem (.ofModule m folder.interfaces) "Shape" .openShape = [] := by
  intro folder m
  have known : folder.interface? "Shape" = some (.ofModule .shapes) := rfl
  have once : Module.shapes.NamesTypeOnce "Shape" := ⟨by decide, by decide⟩
  have handsOut : Module.shapes.HandsOutCtor "Shape" "Circle" :=
    (once.mem_exportedCtors_iff "Circle").mp (by decide)
  have judged := (open_type_imports_judged_exactly m "/project" [.shapes]).2
    "Shape" ⟨"Shape", default⟩ default default
  obtain ⟨_, _, _, _, ofTree⟩ := judged.2 _ known
  have noType := mt (Usage.isTypeUsed_iff_occurs m "Shape").mpr (by decide)
  have noValue := mt (Usage.isValueUsed_iff_occurs m "Shape").mpr (by decide)
  exact ⟨known, noType, noValue, once, handsOut, Module.valueOccurs_drawing_circle,
    (ofTree _ rfl once).2 "Circle" handsOut Module.valueOccurs_drawing_circle⟩

/-- Nothing is written as a value or as a type, and yet an operator that stands for the name of the
type keeps the item. -/
theorem open_imports_not_judged_by_plain_names :
    (∀ name, ¬ (Module.drawing .shapeOperator).NamesValue name ∧
        ¬ (Module.drawing .shapeOperator).NamesType name) ∧
      unusedImportedValue.check (.ofModule (.drawing .shapeOperator)
        ((Folder.new "/project").applyAll [.shapes]).interfaces) = .ok [] := by
  refine ⟨?_, rfl⟩
  intro name
  rw [Module.namesType_iff]
  constructor
  · rintro (holds | holds | holds) <;> exact Module.not_holds_drawing_shapeOperator _ holds
  · rintro ⟨_, _, holds⟩
    exact Module.not_holds_drawing_shapeOperator _ holds

end Rule

end ElmDiagnostics
