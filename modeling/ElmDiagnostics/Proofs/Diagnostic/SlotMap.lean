import ElmDiagnostics.Proofs.Diagnostic.Store
import ElmDiagnostics.Proofs.Source.ByteOrder

/-!
Contract: the store behaves as a total map from files and producers to lists.

Owns: `SlotMap`, that map as a plain function; when a store represents one; that every sequence of
operations keeps the two together; and what each operation answers, said in terms of the map.

Does not own: commands, which reach the store through a board.

The store records only files with diagnostics. It creates a record with the first diagnostic of a
file and drops it with the last one. The map has no records, so neither can show in an answer.
-/

set_option autoImplicit false

namespace ElmDiagnostics

open Diagnostic

/-- The list of every producer for every file. -/
abbrev SlotMap := Uri → Kind → List Diagnostic

namespace SlotMap

def empty : SlotMap := fun _ _ => []

/-- Sets one slot, exactly to the given list, and no other. -/
def update (slots : SlotMap) (uri : Uri) (kind : Kind) (diagnostics : List Diagnostic) : SlotMap :=
  fun file slot => if file = uri ∧ slot = kind then diagnostics else slots file slot

def delete (slots : SlotMap) (uri : Uri) : SlotMap :=
  fun file slot => if file = uri then [] else slots file slot

def clearKind (slots : SlotMap) (kind : Kind) : SlotMap :=
  fun file slot => if slot = kind then [] else slots file slot

/-- All diagnostics of a file, in the order of kinds, repeated problems included. -/
def flattened (slots : SlotMap) (uri : Uri) : List Diagnostic := Kind.all.flatMap (slots uri)

/-- Setting a slot changes the contents of the file exactly when it changes those of the slot. -/
theorem flattened_update_sameProblems_iff (slots : SlotMap) (uri : Uri) (kind : Kind)
    (diagnostics : List Diagnostic) :
    SameProblems (slots.flattened uri) ((slots.update uri kind diagnostics).flattened uri) ↔
      SameProblems (slots uri kind) diagnostics := by
  cases kind <;>
    simp [flattened, Kind.all, update, sameProblems_append_left_iff, sameProblems_append_right_iff]

end SlotMap

namespace Store

/-! ### No empty records -/

/-- Every record holds a diagnostic. -/
def RecordsNonempty (store : Store) : Prop :=
  ∀ uri record, store.files.get? uri = some record → ∃ kind, record.slot kind ≠ []

theorem empty_recordsNonempty : empty.RecordsNonempty := by
  intro uri record found
  exact absurd found (by simp [empty])

theorem RecordsNonempty.delete {store : Store} (nonempty : store.RecordsNonempty) (uri : Uri) :
    (store.delete uri).RecordsNonempty := by
  intro file record found
  rw [Store.delete, remove, Table.get?_erase] at found
  split at found
  · exact absurd found (by simp)
  · exact nonempty file record found

theorem RecordsNonempty.update {store : Store} (nonempty : store.RecordsNonempty) (uri : Uri)
    (kind : Kind) (diagnostics : List Diagnostic) :
    (store.update uri kind diagnostics).RecordsNonempty := by
  intro file record found
  rw [get?_update] at found
  split at found
  · -- the record that was just written
    obtain ⟨notEmpty, isRecord⟩ := Option.ite_none_left_eq_some.mp found
    obtain rfl := Option.some.inj isRecord
    rw [FileReport.isEmpty_iff_slots] at notEmpty
    exact not_forall.mp notEmpty
  · exact nonempty file record found

theorem RecordsNonempty.updateAll {store : Store} (nonempty : store.RecordsNonempty) (kind : Kind)
    (entries : List (Uri × List Diagnostic)) :
    (store.updateAll kind entries).1.RecordsNonempty := by
  induction entries generalizing store with
  | nil => exact nonempty
  | cons entry rest inductionHypothesis =>
      exact inductionHypothesis (nonempty.update entry.1 kind entry.2)

theorem get?_eq_some_report {store : Store} {uri : Uri} {record : FileReport}
    (found : store.files.get? uri = some record) : store.report uri = record := by
  rw [report, found, Option.getD_some]

/-- The recorded files are those with a diagnostic in some slot. -/
theorem mem_uris_iff {store : Store} (nonempty : store.RecordsNonempty) (uri : Uri) :
    uri ∈ store.uris ↔ ∃ kind, (store.report uri).slot kind ≠ [] := by
  constructor
  · intro recorded
    rw [uris, Table.mem_keys_iff, Option.isSome_iff_exists] at recorded
    obtain ⟨record, found⟩ := recorded
    rw [get?_eq_some_report found]
    exact nonempty uri record found
  · rintro ⟨kind, holds⟩
    have isHolder := (mem_holders_iff store kind uri).mpr holds
    exact (List.mem_filter.mp isHolder).1

theorem contains_iff_mem_uris (store : Store) (uri : Uri) :
    store.contains uri = true ↔ uri ∈ store.uris := by
  rw [uris, Table.mem_keys_iff]
  rfl

/-- Stores without empty records are equal when all slots read the same. -/
theorem RecordsNonempty.ext_slot {store other : Store} (nonempty : store.RecordsNonempty)
    (otherNonempty : other.RecordsNonempty)
    (sameSlots : ∀ uri kind, (store.report uri).slot kind = (other.report uri).slot kind) :
    store = other := by
  have sameReports (uri : Uri) : store.report uri = other.report uri :=
    FileReport.ext_slot (sameSlots uri)
  have sameRecorded (uri : Uri) : uri ∈ store.uris ↔ uri ∈ other.uris := by
    rw [mem_uris_iff nonempty, mem_uris_iff otherNonempty, sameReports]
  have sameFiles : store.files = other.files := by
    refine Table.ext_get? fun uri => ?_
    have recorded := sameRecorded uri
    rw [uris, uris, Table.mem_keys_iff, Table.mem_keys_iff] at recorded
    cases found : store.files.get? uri with
    | none =>
        cases foundOther : other.files.get? uri with
        | none => rfl
        | some record => simp [found, foundOther] at recorded
    | some record =>
        cases foundOther : other.files.get? uri with
        | none => simp [found, foundOther] at recorded
        | some otherRecord =>
            rw [← get?_eq_some_report found, ← get?_eq_some_report foundOther, sameReports]
  cases store
  cases other
  exact congrArg Store.mk sameFiles

/-! ### Representing a map -/

/-- Every slot reads as in the map, and no record is kept for a file without diagnostics. -/
structure Represents (store : Store) (slots : SlotMap) : Prop where
  slot_eq : ∀ uri kind, (store.report uri).slot kind = slots uri kind
  recordsNonempty : store.RecordsNonempty

theorem empty_represents : empty.Represents .empty where
  slot_eq _ kind := FileReport.slot_empty kind
  recordsNonempty := empty_recordsNonempty

namespace Represents

variable {store : Store} {slots : SlotMap}

theorem update (represents : store.Represents slots) (uri : Uri) (kind : Kind)
    (diagnostics : List Diagnostic) :
    (store.update uri kind diagnostics).Represents (slots.update uri kind diagnostics) where
  slot_eq file slot := by rw [slot_update, represents.slot_eq, SlotMap.update]
  recordsNonempty := represents.recordsNonempty.update uri kind diagnostics

theorem delete (represents : store.Represents slots) (uri : Uri) :
    (store.delete uri).Represents (slots.delete uri) where
  slot_eq file slot := by
    rw [report_delete, SlotMap.delete]
    split
    · exact FileReport.slot_empty slot
    · exact represents.slot_eq file slot
  recordsNonempty := represents.recordsNonempty.delete uri

theorem clearKind (represents : store.Represents slots) (kind : Kind) :
    (store.clearKind kind).1.Represents (slots.clearKind kind) where
  slot_eq file slot := by rw [slot_clearKind, represents.slot_eq, SlotMap.clearKind]
  recordsNonempty := represents.recordsNonempty.updateAll kind _

theorem mem_uris_iff (represents : store.Represents slots) (uri : Uri) :
    uri ∈ store.uris ↔ ∃ kind, slots uri kind ≠ [] := by
  rw [Store.mem_uris_iff represents.recordsNonempty]
  simp only [represents.slot_eq]

theorem get_eq (represents : store.Represents slots) (uri : Uri) :
    store.get uri = distinct (slots.flattened uri) := by
  have sameSlots : (store.report uri).slot = slots uri := funext (represents.slot_eq uri)
  rw [get, FileReport.merged, sameSlots, SlotMap.flattened]

end Represents

theorem uris_byteSorted (store : Store) :
    store.uris.Pairwise fun earlier later => earlier.bytes < later.bytes :=
  store.files.keys_increasing.imp fun below => (Uri.lt_iff_bytes_lt _ _).mp below

theorem clearKind_byteSorted (store : Store) (kind : Kind) :
    (store.clearKind kind).2.Pairwise fun earlier later => earlier.bytes < later.bytes := by
  have listed := store.updateAll_sublist kind ((store.holders kind).map fun uri => (uri, []))
  have files : ((store.holders kind).map fun uri => (uri, ([] : List Diagnostic))).map (·.1) =
      store.holders kind := by
    rw [List.map_map]
    exact List.map_id _
  rw [files] at listed
  have holdersSorted : (store.holders kind).Pairwise
      fun earlier later => earlier.bytes < later.bytes := store.uris_byteSorted.filter _
  exact holdersSorted.sublist listed

/-- Emptying a kind changes exactly the files that held diagnostics of it. -/
theorem mem_clearKind_iff (store : Store) (kind : Kind) (uri : Uri) :
    uri ∈ (store.clearKind kind).2 ↔ (store.report uri).slot kind ≠ [] := by
  have listed := store.mem_updateAll_iff kind (store.resetMissing kind ∅).entries
    (Table.keys_nodup _) uri
  rw [← replace, ← clearKind_eq_replace, slot_clearKind, if_pos rfl, sameProblems_nil_iff] at listed
  exact listed

/-! ### Runs of operations -/

/-- What can be done to a store. -/
inductive Operation where
  | update (uri : Uri) (kind : Kind) (diagnostics : List Diagnostic)
  | delete (uri : Uri)
  | clearKind (kind : Kind)

/-- What an operation reports back. -/
inductive Answer where
  | flag (value : Bool)
  | files (uris : List Uri)
deriving DecidableEq, Repr

/-- Carries out an operation: an update tells whether the file changed, a deletion whether there was
a record, and clearing a kind which files changed. -/
def perform (store : Store) : Operation → Store × Answer
  | .update uri kind diagnostics => (store.replaceSlot uri kind diagnostics).map id .flag
  | .delete uri => (store.remove uri).map id .flag
  | .clearKind kind => (store.clearKind kind).map id .files

def performAll (store : Store) (operations : List Operation) : Store :=
  operations.foldl (fun store operation => (store.perform operation).1) store

end Store

namespace SlotMap

open Store (Operation Answer)

def perform (slots : SlotMap) : Operation → SlotMap
  | .update uri kind diagnostics => slots.update uri kind diagnostics
  | .delete uri => slots.delete uri
  | .clearKind kind => slots.clearKind kind

def performAll (slots : SlotMap) (operations : List Operation) : SlotMap :=
  operations.foldl perform slots

/-- The right answer to an operation, read off the map before and after it. -/
def Answers (slots : SlotMap) : Operation → Answer → Prop
  | .update uri kind diagnostics, .flag changed =>
      changed = true ↔
        ¬ SameProblems (slots.flattened uri) ((slots.update uri kind diagnostics).flattened uri)
  | .delete uri, .flag existed => existed = true ↔ ∃ kind, slots uri kind ≠ []
  | .clearKind kind, .files changed =>
      changed.Pairwise (fun earlier later => earlier.bytes < later.bytes) ∧
        ∀ uri, uri ∈ changed ↔ slots uri kind ≠ []
  | _, _ => False

end SlotMap

namespace Store.Represents

variable {store : Store} {slots : SlotMap}

theorem perform (represents : store.Represents slots) (operation : Operation) :
    (store.perform operation).1.Represents (slots.perform operation) := by
  cases operation with
  | update uri kind diagnostics => exact represents.update uri kind diagnostics
  | delete uri => exact represents.delete uri
  | clearKind kind => exact represents.clearKind kind

theorem performAll (represents : store.Represents slots) (operations : List Operation) :
    (store.performAll operations).Represents (slots.performAll operations) := by
  induction operations generalizing store slots with
  | nil => exact represents
  | cons operation rest inductionHypothesis =>
      exact inductionHypothesis (represents.perform operation)

theorem answers (represents : store.Represents slots) (operation : Operation) :
    slots.Answers operation (store.perform operation).2 := by
  cases operation with
  | update uri kind diagnostics =>
      show store.changes uri kind diagnostics = true ↔ _
      rw [changes_eq_true_iff, represents.slot_eq, SlotMap.flattened_update_sameProblems_iff]
  | delete uri =>
      show store.contains uri = true ↔ _
      rw [contains_iff_mem_uris, represents.mem_uris_iff]
  | clearKind kind =>
      refine ⟨store.clearKind_byteSorted kind, fun uri => ?_⟩
      rw [← represents.slot_eq]
      exact store.mem_clearKind_iff kind uri

end Store.Represents

/-- After every sequence of operations the store reads as the map on which the same operations were
carried out: slot by slot, with no empty record, with the recorded files in the order of their
bytes, and merged, which keeps the first diagnostic of each problem; and every next operation gives
the answer that the map calls for. -/
theorem Store.refines_slotMap (operations : List Operation) :
    let store := Store.empty.performAll operations
    let slots := SlotMap.empty.performAll operations
    (∀ uri kind, (store.report uri).slot kind = slots uri kind) ∧
    (∀ uri record, store.files.get? uri = some record → ∃ kind, record.slot kind ≠ []) ∧
    store.uris.Pairwise (fun earlier later => earlier.bytes < later.bytes) ∧
    (∀ uri, uri ∈ store.uris ↔ ∃ kind, slots uri kind ≠ []) ∧
    (∀ uri, store.get uri = distinct (slots.flattened uri)) ∧
    (∀ uri, KeepsFirst (store.get uri) (slots.flattened uri)) ∧
    ∀ operation, slots.Answers operation (store.perform operation).2 := by
  intro store slots
  have represents : store.Represents slots := empty_represents.performAll operations
  refine ⟨represents.slot_eq, represents.recordsNonempty, store.uris_byteSorted,
    represents.mem_uris_iff, represents.get_eq, ?_, represents.answers⟩
  intro uri
  rw [represents.get_eq]
  exact distinct_keepsFirst (slots.flattened uri)

end ElmDiagnostics
