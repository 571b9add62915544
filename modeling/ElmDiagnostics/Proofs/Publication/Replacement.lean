import ElmDiagnostics.Proofs.Diagnostic.SlotMap
import ElmDiagnostics.Proofs.Publication.Board
import Mathlib.Data.List.Nodup
import Mathlib.Data.List.Perm.Basic

/-!
Contract: replacing the diagnostics of a kind in the whole project.

Owns: that updates of different files commute, so that a bulk update may take its files in any
order; which files a replacement asks to publish; and that emptying a kind is the replacement by a
run that reports nothing.

Does not own: when the windows of these files close.

A replacement first adds the files that hold diagnostics of the kind and are missing from the run,
and then updates file by file, where each update may create the record of its file or drop it. Seen
from the slots there is one step: every slot of the kind becomes what the run reports.
-/

set_option autoImplicit false

namespace ElmDiagnostics

open Diagnostic

namespace Store

/-! ### The order of updates -/

/-- Updates of different files commute: records that one creates or drops are not the other's. -/
theorem update_comm (store : Store) {uri other : Uri} (different : uri ≠ other) (kind : Kind)
    (diagnostics others : List Diagnostic) :
    (store.update uri kind diagnostics).update other kind others =
      (store.update other kind others).update uri kind diagnostics := by
  have sameFiles : ((store.update uri kind diagnostics).update other kind others).files =
      ((store.update other kind others).update uri kind diagnostics).files := by
    apply Table.ext_get?
    intro wanted
    simp only [get?_update, report_update, if_neg different, if_neg (Ne.symm different)]
    by_cases isUri : wanted = uri
    · simp [isUri, different]
    · simp [isUri]
  exact congrArg Store.mk sameFiles

theorem updateAll_eq_foldl (store : Store) (kind : Kind) (entries : List (Uri × List Diagnostic)) :
    (store.updateAll kind entries).1 =
      entries.foldl (fun store entry => store.update entry.1 kind entry.2) store := by
  induction entries generalizing store with
  | nil => rfl
  | cons entry rest inductionHypothesis =>
      exact inductionHypothesis (store.update entry.1 kind entry.2)

section Order

variable {entries others : List (Uri × List Diagnostic)} (permuted : entries.Perm others)
  (distinctFiles : (others.map (·.1)).Nodup)

include permuted distinctFiles

/-- A bulk update leads to the same store in whatever order it takes the files. -/
theorem updateAll_of_perm (store : Store) (kind : Kind) :
    (store.updateAll kind entries).1 = (store.updateAll kind others).1 := by
  have alsoDistinct := (permuted.map (·.1)).nodup_iff.mpr distinctFiles
  rw [updateAll_eq_foldl, updateAll_eq_foldl]
  apply permuted.foldl_eq'
  intro first isFirst second isSecond reached
  by_cases sameFile : first.1 = second.1
  · rw [List.inj_on_of_nodup_map alsoDistinct isFirst isSecond sameFile]
  · exact update_comm reached sameFile kind first.2 second.2

/-- In whatever order a bulk update takes the files, it changes the same ones. -/
theorem changed_updateAll_of_perm (store : Store) (kind : Kind) :
    (store.updateAll kind entries).2.Perm (store.updateAll kind others).2 := by
  have alsoDistinct := (permuted.map (·.1)).nodup_iff.mpr distinctFiles
  have listedOnce := alsoDistinct.sublist (store.updateAll_sublist kind entries)
  have alsoListedOnce := distinctFiles.sublist (store.updateAll_sublist kind others)
  apply (List.perm_ext_iff_of_nodup listedOnce alsoListedOnce).mpr
  intro uri
  rw [mem_updateAll_iff store kind entries alsoDistinct,
    mem_updateAll_iff store kind others distinctFiles,
    updateAll_of_perm permuted distinctFiles store kind]

end Order

/-! ### Whole projects -/

/-- A replacement lists exactly the files whose slot it changes. -/
theorem mem_replace_iff (store : Store) (kind : Kind) (results : ProjectResults) (uri : Uri) :
    uri ∈ (store.replace kind results).2 ↔
      ¬ SameProblems ((store.report uri).slot kind)
        (((store.replace kind results).1.report uri).slot kind) :=
  store.mem_updateAll_iff kind _ (Table.keys_nodup _) uri

theorem replace_byteSorted (store : Store) (kind : Kind) (results : ProjectResults) :
    (store.replace kind results).2.Pairwise fun earlier later => earlier.bytes < later.bytes := by
  have keysSorted : (store.resetMissing kind results).keys.Pairwise
      fun earlier later => earlier.bytes < later.bytes :=
    (Table.keys_increasing _).imp fun below => (Uri.lt_iff_bytes_lt _ _).mp below
  exact keysSorted.sublist (store.updateAll_sublist kind _)

end Store

/-- Handling a replacement sets every slot of the kind to what the run reports for the file, which
is nothing where the run does not mention it, and leaves all other slots. It asks to publish
exactly the files whose slot changes, in the order of their bytes. Afterwards the windows that were
open are open as before, and those of the other files that change, at full length, with them. Taking
the files in any other order leads to the same store and asks for the same files. Emptying a kind is
the replacement by a run that reports nothing, and asks for the files that held diagnostics of the
kind. -/
theorem Board.replacement_is_exact (board : Board) (now : Nat) (kind : Kind)
    (results : ProjectResults) :
    let replaced := board.store.replace kind results
    let reached := (board.handle now (.replace kind results)).1
    let cleared := board.store.clearKind kind
    board.handle now (.replace kind results) =
      ({ board with store := replaced.1 }.requestAll now replaced.2, []) ∧
    (∀ uri other, (replaced.1.report uri).slot other =
      if other = kind then (results.get? uri).getD [] else (board.store.report uri).slot other) ∧
    (∀ uri, uri ∈ replaced.2 ↔
      ¬ SameProblems ((board.store.report uri).slot kind) ((replaced.1.report uri).slot kind)) ∧
    replaced.2.Pairwise (fun earlier later => earlier.bytes < later.bytes) ∧
    (∀ uri, reached.isOpen uri = true ↔ board.isOpen uri = true ∨
      ¬ SameProblems ((board.store.report uri).slot kind) ((replaced.1.report uri).slot kind)) ∧
    (∀ window, window ∈ reached.windows ↔ window ∈ board.windows ∨
      board.isOpen window.uri = false ∧ ¬ SameProblems ((board.store.report window.uri).slot kind)
        ((replaced.1.report window.uri).slot kind) ∧ window.closes = now + board.window) ∧
    (∀ entries, entries.Perm (board.store.resetMissing kind results).entries →
      (board.store.updateAll kind entries).1 = replaced.1 ∧
      (board.store.updateAll kind entries).2.Perm replaced.2) ∧
    cleared = board.store.replace kind ∅ ∧
    board.handle now (.clearKind kind) = board.handle now (.replace kind ∅) ∧
    cleared.2.Pairwise (fun earlier later => earlier.bytes < later.bytes) ∧
    ∀ uri, uri ∈ cleared.2 ↔ (board.store.report uri).slot kind ≠ [] := by
  intro replaced reached cleared
  have changed := board.store.mem_replace_iff kind results
  refine ⟨rfl, fun uri other => board.store.slot_replace kind other results uri, changed,
    board.store.replace_byteSorted kind results, ?_, ?_, ?_, board.store.clearKind_eq_replace kind,
    ?_, board.store.clearKind_byteSorted kind, board.store.mem_clearKind_iff kind⟩
  · intro uri
    rw [← changed]
    exact isOpen_requestAll { board with store := replaced.1 } now replaced.2 uri
  · intro window
    rw [← changed]
    exact mem_windows_requestAll { board with store := replaced.1 } now replaced.2 window
  · intro entries permuted
    have distinctFiles := Table.keys_nodup (board.store.resetMissing kind results)
    exact ⟨Store.updateAll_of_perm permuted distinctFiles board.store kind,
      Store.changed_updateAll_of_perm permuted distinctFiles board.store kind⟩
  · simp only [handle, Store.clearKind_eq_replace]

end ElmDiagnostics
