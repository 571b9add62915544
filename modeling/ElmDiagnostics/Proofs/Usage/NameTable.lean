import ElmDiagnostics.Table
import ElmDiagnostics.Usage.Scope
import Mathlib.Logic.Basic

/-!
Contract: what a top-level name stands for, said without tables.

Owns: which names a declaration introduces in which space, `Denotes`, where the last declaration
of a name counts, and that look-up in the name tables of a module finds exactly that.

Does not own: which references a declaration makes.
-/

set_option autoImplicit false

namespace ElmDiagnostics

/-! ### The last of several -/

section LastOf

variable {α β : Type}

/-- The last item that introduces something introduces `value`. -/
def LastOf (introduces : α → β → Prop) (items : List α) (value : β) : Prop :=
  ∃ before item after, items = before ++ item :: after ∧ introduces item value ∧
    ∀ later ∈ after, ∀ other, ¬ introduces later other

variable {introduces : α → β → Prop}

theorem LastOf.introduced {items : List α} {value : β} (last : LastOf introduces items value) :
    ∃ item ∈ items, introduces item value := by
  obtain ⟨before, item, after, rfl, introduced, _⟩ := last
  exact ⟨item, by simp, introduced⟩

theorem lastOf_nil (value : β) : ¬ LastOf introduces [] value := by
  intro last
  obtain ⟨item, inNil, _⟩ := last.introduced
  exact absurd inNil (by simp)

/-- The last of a longer list is the last of its tail, or its head when the tail introduces
nothing. -/
theorem lastOf_cons_iff (item : α) (rest : List α) (value : β) :
    LastOf introduces (item :: rest) value ↔
      LastOf introduces rest value ∨
        introduces item value ∧ ∀ later ∈ rest, ∀ other, ¬ introduces later other := by
  constructor
  · rintro ⟨before, found, after, split, introduced, noneLater⟩
    cases before with
    | nil =>
        obtain ⟨rfl, rfl⟩ := List.cons.inj split
        exact .inr ⟨introduced, noneLater⟩
    | cons head before =>
        obtain ⟨rfl, rfl⟩ := List.cons.inj split
        exact .inl ⟨before, found, after, rfl, introduced, noneLater⟩
  · rintro (⟨before, found, after, rfl, introduced, noneLater⟩ | ⟨introduced, noneLater⟩)
    · exact ⟨item :: before, found, after, rfl, introduced, noneLater⟩
    · exact ⟨[], item, rest, rfl, introduced, noneLater⟩

theorem exists_lastOf {items : List α}
    (introduced : ∃ item ∈ items, ∃ value, introduces item value) :
    ∃ value, LastOf introduces items value := by
  induction items with
  | nil => simp at introduced
  | cons head rest inductionHypothesis =>
      by_cases laterIntroduces : ∃ later ∈ rest, ∃ value, introduces later value
      · obtain ⟨value, last⟩ := inductionHypothesis laterIntroduces
        exact ⟨value, (lastOf_cons_iff head rest value).mpr (.inl last)⟩
      · obtain ⟨item, inItems, value, introducesValue⟩ := introduced
        have noneLater : ∀ later ∈ rest, ∀ other, ¬ introduces later other := by
          intro later inRest other introducesOther
          exact laterIntroduces ⟨later, inRest, other, introducesOther⟩
        rcases List.mem_cons.mp inItems with rfl | inRest
        · exact ⟨value, (lastOf_cons_iff item rest value).mpr (.inr ⟨introducesValue, noneLater⟩)⟩
        · exact absurd introducesValue (noneLater item inRest value)

theorem LastOf.unique {items : List α} {value other : β}
    (single : ∀ item value other, introduces item value → introduces item other → value = other)
    (last : LastOf introduces items value) (otherLast : LastOf introduces items other) :
    value = other := by
  induction items with
  | nil => exact absurd last (lastOf_nil value)
  | cons head rest inductionHypothesis =>
      rw [lastOf_cons_iff] at last otherLast
      rcases last with inRest | ⟨atHead, noneLater⟩ <;>
        rcases otherLast with otherInRest | ⟨otherAtHead, otherNoneLater⟩
      · exact inductionHypothesis inRest otherInRest
      · obtain ⟨item, inItems, introduced⟩ := inRest.introduced
        exact absurd introduced (otherNoneLater item inItems value)
      · obtain ⟨item, inItems, introduced⟩ := otherInRest.introduced
        exact absurd introduced (noneLater item inItems other)
      · exact single head value other atHead otherAtHead

/-- Leaving out items does not matter to the last one, if that one stays. -/
theorem LastOf.filter {items : List α} {value : β} {keep : α → Bool}
    (keepsIntroducing : ∀ item ∈ items, introduces item value → keep item = true)
    (last : LastOf introduces items value) : LastOf introduces (items.filter keep) value := by
  obtain ⟨before, item, after, rfl, introduced, noneLater⟩ := last
  have kept : keep item = true := keepsIntroducing item (by simp) introduced
  refine ⟨before.filter keep, item, after.filter keep, ?_, introduced, ?_⟩
  · rw [List.filter_append, List.filter_cons_of_pos kept]
  · intro later inAfter
    exact noneLater later (List.mem_filter.mp inAfter).1

/-- Leaving out items uncovers nothing, if the items that count before all stay. -/
theorem LastOf.of_filter {items : List α} {value : β} {keep : α → Bool}
    (single : ∀ item value other, introduces item value → introduces item other → value = other)
    (keepsLast : ∀ before, LastOf introduces items before →
      ∀ item ∈ items, introduces item before → keep item = true)
    (last : LastOf introduces (items.filter keep) value) : LastOf introduces items value := by
  obtain ⟨item, isKept, introduced⟩ := last.introduced
  obtain ⟨before, lastBefore⟩ : ∃ before, LastOf introduces items before :=
    exists_lastOf ⟨item, (List.mem_filter.mp isKept).1, value, introduced⟩
  have stays := lastBefore.filter (keepsLast before lastBefore)
  exact LastOf.unique single last stays ▸ lastBefore

end LastOf

/-! ### Look-up of the last entry -/

section Latest

variable {α β : Type}

theorem latest_append (first second : List (String × β)) (name : String) :
    latest (first ++ second) name = (latest second name).or (latest first name) := by
  rw [latest, List.reverse_append, List.lookup_append]
  rfl

theorem mem_of_latest_eq_some {entries : List (String × β)} {name : String} {value : β}
    (found : latest entries name = some value) : (name, value) ∈ entries :=
  List.mem_reverse.mp (Table.mem_of_lookup_eq_some found)

theorem latest_eq_none_iff (entries : List (String × β)) (name : String) :
    latest entries name = none ↔ ∀ value, (name, value) ∉ entries := by
  rw [latest, List.lookup_eq_none_iff]
  simp only [List.mem_reverse, Prod.forall, bne_iff_ne, ne_eq]
  constructor
  · intro absent value member
    exact absent name value member rfl
  · rintro absent other value member rfl
    exact absent value member

/-- Look-up among the entries of several items finds the last item that has an entry of the
name, provided the entries of one item under one name agree. -/
theorem latest_flatMap_iff (entriesOf : α → List (String × β))
    (single : ∀ item name value other,
      (name, value) ∈ entriesOf item → (name, other) ∈ entriesOf item → value = other)
    (items : List α) (name : String) (value : β) :
    latest (items.flatMap entriesOf) name = some value ↔
      LastOf (fun item value => (name, value) ∈ entriesOf item) items value := by
  induction items with
  | nil =>
      refine ⟨fun found => ?_, fun last => absurd last (lastOf_nil value)⟩
      simp [latest] at found
  | cons item rest inductionHypothesis =>
      rw [List.flatMap_cons, latest_append, lastOf_cons_iff, ← inductionHypothesis]
      cases later : latest (rest.flatMap entriesOf) name with
      | some found =>
          obtain ⟨introducer, inRest, entry⟩ :=
            List.mem_flatMap.mp (mem_of_latest_eq_some later)
          constructor
          · exact .inl
          · rintro (same | ⟨_, noneLater⟩)
            · exact same
            · exact absurd entry (noneLater introducer inRest found)
      | none =>
          have noneLater : ∀ later ∈ rest, ∀ other, (name, other) ∉ entriesOf later := by
            intro laterItem inRest other entry
            exact (latest_eq_none_iff _ name).mp later other
              (List.mem_flatMap.mpr ⟨laterItem, inRest, entry⟩)
          rw [Option.none_or]
          constructor
          · intro found
            exact .inr ⟨mem_of_latest_eq_some found, noneLater⟩
          · rintro (impossible | ⟨entry, _⟩)
            · exact absurd impossible (by simp)
            · cases found : latest (entriesOf item) name with
              | none => exact absurd entry ((latest_eq_none_iff _ name).mp found value)
              | some other =>
                  rw [single item name other value (mem_of_latest_eq_some found) entry]

theorem mem_latestValues_iff (entries : List (String × β)) (value : β) :
    value ∈ latestValues entries ↔ ∃ name, latest entries name = some value := by
  rw [latestValues, List.mem_filterMap]
  constructor
  · rintro ⟨entry, _, found⟩
    exact ⟨entry.1, found⟩
  · rintro ⟨name, found⟩
    exact ⟨(name, value), mem_of_latest_eq_some found, found⟩

end Latest

/-! ### Names of a module -/

/-- The spaces in which names are looked up: values with ports; aliases with custom types;
constructors with the aliases of closed records. -/
inductive NameSpace where
  | value
  | type
  | ctor
deriving DecidableEq, Repr

/-- The declaration introduces the name in the space, and there it stands for `id`. -/
inductive Declaration.Introduces : Declaration → NameSpace → String → DeclId → Prop where
  | value (decl : ValueDecl) :
      Introduces (.value decl) .value decl.name.text (.value decl.name.text)
  | port (decl : PortDecl) : Introduces (.port decl) .value decl.name.text (.port decl.name.text)
  | typeAlias (decl : TypeAliasDecl) :
      Introduces (.typeAlias decl) .type decl.name.text (.typeAlias decl.name.text)
  | customType (decl : CustomTypeDecl) :
      Introduces (.customType decl) .type decl.name.text (.customType decl.name.text)
  | recordAlias (decl : TypeAliasDecl) (fields : List TypeField) (span : Span)
      (closed : decl.type = .record none fields span) :
      Introduces (.typeAlias decl) .ctor decl.name.text (.typeAlias decl.name.text)
  | ctor (decl : CustomTypeDecl) (ctor : CtorDecl) (isCtor : ctor ∈ decl.ctors) :
      Introduces (.customType decl) .ctor ctor.name.text (.ctor ctor.name.text)

theorem Declaration.Introduces.unique {declaration : Declaration} {space : NameSpace}
    {name : String} {id other : DeclId} (introduced : declaration.Introduces space name id)
    (introducedOther : declaration.Introduces space name other) : id = other := by
  cases introduced with
  | ctor decl ctor isCtor =>
      generalize ctor.name.text = name at introducedOther
      cases introducedOther
      rfl
  | _ =>
      cases introducedOther
      rfl

/-- The declaration makes `function` the meaning of the operator. -/
def Declaration.DefinesOperator (declaration : Declaration) (symbol function : String) : Prop :=
  ∃ decl : OperatorDecl, declaration = .operator decl ∧ decl.symbol.text = symbol ∧
    decl.function.text = function

theorem Declaration.DefinesOperator.unique {declaration : Declaration}
    {symbol function other : String} (defines : declaration.DefinesOperator symbol function)
    (definesOther : declaration.DefinesOperator symbol other) : function = other := by
  obtain ⟨decl, rfl, _, rfl⟩ := defines
  obtain ⟨_, same, _, rfl⟩ := definesOther
  cases same
  rfl

namespace Module

/-- Inside the module, the name stands for `id`: its last declaration in the space does. -/
def Denotes (m : Module) (space : NameSpace) (name : String) (id : DeclId) : Prop :=
  LastOf (fun declaration id => declaration.Introduces space name id) m.declarations id

/-- The last declaration of the operator makes it stand for `function`. -/
def OperatorDenotes (m : Module) (symbol function : String) : Prop :=
  LastOf (fun declaration function => declaration.DefinesOperator symbol function)
    m.declarations function

/-- The declaration that a reference means. Qualified names mean none of the module's own, and
operators are not declarations. -/
inductive Resolves (m : Module) : Reference → DeclId → Prop where
  | value {name : String} {id : DeclId} (denotes : m.Denotes .value name id) :
      Resolves m (.value none name) id
  | ctor {name : String} {id : DeclId} (denotes : m.Denotes .ctor name id) :
      Resolves m (.ctor none name) id
  | type {name : String} {id : DeclId} (denotes : m.Denotes .type name id) :
      Resolves m (.type none name) id

end Module

/-! ### The tables of a module -/

/-- The entries that a declaration makes in the table of a space. -/
def NameSpace.entriesOf : NameSpace → Declaration → List (String × DeclId)
  | .value => Scope.valueEntries
  | .type => Scope.typeEntries
  | .ctor => Scope.ctorEntries

theorem TypeExpr.isClosedRecord_iff (type : TypeExpr) :
    type.isClosedRecord = true ↔ ∃ fields span, type = .record none fields span := by
  cases type with
  | record base fields span => cases base <;> simp [isClosedRecord]
  | _ => simp [isClosedRecord]

theorem NameSpace.mem_entriesOf_iff (space : NameSpace) (declaration : Declaration)
    (name : String) (id : DeclId) :
    (name, id) ∈ space.entriesOf declaration ↔ declaration.Introduces space name id := by
  constructor
  · intro entry
    cases space with
    | value =>
        cases declaration with
        | value decl =>
            obtain ⟨rfl, rfl⟩ := Prod.mk.inj (List.mem_singleton.mp entry)
            exact .value decl
        | port decl =>
            obtain ⟨rfl, rfl⟩ := Prod.mk.inj (List.mem_singleton.mp entry)
            exact .port decl
        | _ => exact absurd entry (by simp [entriesOf, Scope.valueEntries])
    | type =>
        cases declaration with
        | typeAlias decl =>
            obtain ⟨rfl, rfl⟩ := Prod.mk.inj (List.mem_singleton.mp entry)
            exact .typeAlias decl
        | customType decl =>
            obtain ⟨rfl, rfl⟩ := Prod.mk.inj (List.mem_singleton.mp entry)
            exact .customType decl
        | _ => exact absurd entry (by simp [entriesOf, Scope.typeEntries])
    | ctor =>
        cases declaration with
        | typeAlias decl =>
            by_cases isRecord : decl.isRecordConstructor
            · obtain ⟨fields, span, closed⟩ := (TypeExpr.isClosedRecord_iff _).mp isRecord
              have stored : (name, id) = (decl.name.text, .typeAlias decl.name.text) := by
                simpa [entriesOf, Scope.ctorEntries, isRecord] using entry
              obtain ⟨rfl, rfl⟩ := Prod.mk.inj stored
              exact .recordAlias decl fields span closed
            · exact absurd entry (by simp [entriesOf, Scope.ctorEntries, isRecord])
        | customType decl =>
            obtain ⟨ctor, isCtor, stored⟩ := List.mem_map.mp entry
            obtain ⟨rfl, rfl⟩ := Prod.mk.inj stored
            exact .ctor decl ctor isCtor
        | _ => exact absurd entry (by simp [entriesOf, Scope.ctorEntries])
  · intro introduced
    cases introduced with
    | value | port | typeAlias | customType => exact List.mem_singleton.mpr rfl
    | recordAlias decl fields span closed =>
        have isRecord : decl.isRecordConstructor = true :=
          (TypeExpr.isClosedRecord_iff _).mpr ⟨fields, span, closed⟩
        simp [entriesOf, Scope.ctorEntries, isRecord]
    | ctor decl ctor isCtor => exact List.mem_map.mpr ⟨ctor, isCtor, rfl⟩

namespace Scope

def find? (scope : Scope) : NameSpace → String → Option DeclId
  | .value => scope.value?
  | .type => scope.type?
  | .ctor => scope.ctor?

/-- Look-up in the tables of a module finds what the name stands for. -/
theorem find?_eq_some_iff (m : Module) (space : NameSpace) (name : String) (id : DeclId) :
    (ofModule m).find? space name = some id ↔ m.Denotes space name id := by
  have isLatest : (ofModule m).find? space name =
      latest (m.declarations.flatMap space.entriesOf) name := by
    cases space <;> rfl
  rw [isLatest, latest_flatMap_iff]
  · simp only [NameSpace.mem_entriesOf_iff]
    rfl
  · intro declaration name value other entry otherEntry
    rw [NameSpace.mem_entriesOf_iff] at entry otherEntry
    exact entry.unique otherEntry

theorem latest_operators_iff (m : Module) (symbol function : String) :
    latest (ofModule m).operators symbol = some function ↔ m.OperatorDenotes symbol function := by
  have mem_operatorEntries (declaration : Declaration) (symbol function : String) :
      (symbol, function) ∈ operatorEntries declaration ↔
        declaration.DefinesOperator symbol function := by
    cases declaration <;> simp [operatorEntries, Declaration.DefinesOperator, eq_comm]
  change latest (m.declarations.flatMap operatorEntries) symbol = some function ↔ _
  rw [latest_flatMap_iff]
  · simp only [mem_operatorEntries]
    rfl
  · intro declaration symbol function other entry otherEntry
    rw [mem_operatorEntries] at entry otherEntry
    exact entry.unique otherEntry

/-- Resolution in the tables of a module finds what a reference means. -/
theorem resolve_eq_some_iff (m : Module) (reference : Reference) (id : DeclId) :
    (ofModule m).resolve reference = some id ↔ m.Resolves reference id := by
  constructor
  · intro found
    cases reference with
    | value qualifier name =>
        cases qualifier with
        | none => exact .value ((find?_eq_some_iff m .value name id).mp found)
        | some _ => exact absurd found (by simp [resolve])
    | ctor qualifier name =>
        cases qualifier with
        | none => exact .ctor ((find?_eq_some_iff m .ctor name id).mp found)
        | some _ => exact absurd found (by simp [resolve])
    | type qualifier name =>
        cases qualifier with
        | none => exact .type ((find?_eq_some_iff m .type name id).mp found)
        | some _ => exact absurd found (by simp [resolve])
    | operator symbol => exact absurd found (by simp [resolve])
  · intro resolves
    cases resolves with
    | value denotes => exact (find?_eq_some_iff m .value _ id).mpr denotes
    | ctor denotes => exact (find?_eq_some_iff m .ctor _ id).mpr denotes
    | type denotes => exact (find?_eq_some_iff m .type _ id).mpr denotes

end Scope

end ElmDiagnostics
