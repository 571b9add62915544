import ElmDiagnostics.Proofs.Diagnostic.Store
import ElmDiagnostics.Publication.Board

/-!
Contract: which windows are open after each operation of a board, and what it leaves alone.

Owns: one equation for the open windows after requesting, cancelling, closing and draining, the
store after a command, and the form in which every update reaches the windows.

Does not own: the client, and the times at which windows close.
-/

set_option autoImplicit false

namespace ElmDiagnostics.Board

open Diagnostic

/-! ### Opening and cancelling -/

theorem isOpen_iff (board : Board) (uri : Uri) :
    board.isOpen uri = true ↔ uri ∈ board.windows.map (·.uri) := by
  simp [isOpen, List.any_eq_true]

theorem store_request (board : Board) (now : Nat) (uri : Uri) :
    (board.request now uri).store = board.store := by
  unfold request
  split <;> rfl

theorem isOpen_request (board : Board) (now : Nat) (uri wanted : Uri) :
    (board.request now uri).isOpen wanted = true ↔ board.isOpen wanted = true ∨ wanted = uri := by
  unfold request
  split
  next alreadyOpen =>
    refine ⟨.inl, ?_⟩
    rintro (isOpen | rfl)
    · exact isOpen
    · exact alreadyOpen
  next => simp [isOpen_iff]

theorem window_request (board : Board) (now : Nat) (uri : Uri) :
    (board.request now uri).window = board.window := by
  unfold request
  split <;> rfl

theorem mem_windows_request (board : Board) (now : Nat) (uri : Uri) (wanted : Window) :
    wanted ∈ (board.request now uri).windows ↔
      wanted ∈ board.windows ∨ board.isOpen uri = false ∧ wanted = ⟨uri, now + board.window⟩ := by
  unfold request
  split
  next alreadyOpen => simp [alreadyOpen]
  next notOpen => simp [notOpen]

theorem store_requestAll (board : Board) (now : Nat) (uris : List Uri) :
    (board.requestAll now uris).store = board.store := by
  induction uris generalizing board with
  | nil => rfl
  | cons uri rest inductionHypothesis =>
      exact (inductionHypothesis (board.request now uri)).trans (store_request board now uri)

theorem isOpen_requestAll (board : Board) (now : Nat) (uris : List Uri) (wanted : Uri) :
    (board.requestAll now uris).isOpen wanted = true ↔
      board.isOpen wanted = true ∨ wanted ∈ uris := by
  induction uris generalizing board with
  | nil => simp [requestAll]
  | cons uri rest inductionHypothesis =>
      have later := inductionHypothesis (board.request now uri)
      rw [isOpen_request, or_assoc, ← List.mem_cons] at later
      exact later

theorem window_requestAll (board : Board) (now : Nat) (uris : List Uri) :
    (board.requestAll now uris).window = board.window := by
  induction uris generalizing board with
  | nil => rfl
  | cons uri rest inductionHypothesis =>
      exact (inductionHypothesis (board.request now uri)).trans (window_request board now uri)

/-- Every open window stays as it is; files without one get a window of full length. -/
theorem mem_windows_requestAll (board : Board) (now : Nat) (uris : List Uri) (wanted : Window) :
    wanted ∈ (board.requestAll now uris).windows ↔
      wanted ∈ board.windows ∨
        board.isOpen wanted.uri = false ∧ wanted.uri ∈ uris ∧
          wanted.closes = now + board.window := by
  induction uris generalizing board with
  | nil => simp [requestAll]
  | cons uri rest inductionHypothesis =>
      have notOpen : (board.request now uri).isOpen wanted.uri = false ↔
          board.isOpen wanted.uri = false ∧ wanted.uri ≠ uri := by
        rw [← Bool.not_eq_true, isOpen_request, not_or, Bool.not_eq_true]
      have later := inductionHypothesis (board.request now uri)
      rw [mem_windows_request, window_request, notOpen] at later
      refine later.trans ?_
      rw [List.mem_cons]
      by_cases isUri : wanted.uri = uri
      · subst isUri
        cases wanted
        simp
      · have different : wanted ≠ ⟨uri, now + board.window⟩ := fun same => isUri (same ▸ rfl)
        simp [isUri, different]

theorem mem_windows_cancel (board : Board) (uri : Uri) (wanted : Window) :
    wanted ∈ (board.cancel uri).windows ↔ wanted ∈ board.windows ∧ wanted.uri ≠ uri := by
  simp [cancel]

theorem isOpen_cancel (board : Board) (uri wanted : Uri) :
    (board.cancel uri).isOpen wanted = true ↔ board.isOpen wanted = true ∧ wanted ≠ uri := by
  rw [isOpen_iff, isOpen_iff, cancel]
  simp only [List.mem_map, List.mem_filter, decide_eq_true_eq]
  constructor
  · rintro ⟨window, ⟨member, different⟩, rfl⟩
    exact ⟨⟨window, member, rfl⟩, different⟩
  · rintro ⟨⟨window, member, rfl⟩, different⟩
    exact ⟨window, ⟨member, different⟩, rfl⟩

theorem cancel_of_not_open {board : Board} {uri : Uri} (notOpen : board.isOpen uri = false) :
    board.cancel uri = board := by
  have kept : board.windows.filter (fun window => window.uri ≠ uri) = board.windows := by
    rw [List.filter_eq_self]
    intro window isWindow
    rw [decide_eq_true_iff]
    rintro rfl
    have isOpen := (isOpen_iff board window.uri).mpr (List.mem_map_of_mem isWindow)
    exact Bool.false_ne_true (notOpen.symm.trans isOpen)
  rw [cancel, kept]

/-! ### Commands -/

/-- The store after a command, and the files whose diagnostics the command counts as changed. -/
def applied (store : Store) : Command → Store × List Uri
  | .update uri kind diagnostics =>
      (store.update uri kind diagnostics, if store.changes uri kind diagnostics then [uri] else [])
  | .replace kind results => store.replace kind results
  | .clearKind kind => store.clearKind kind
  | .delete uri => (store.delete uri, [])

/-- Every command but a deletion opens windows for the files it changes and publishes nothing. -/
theorem handle_eq_requestAll (board : Board) (now : Nat) (command : Command)
    (notDelete : ∀ uri, command ≠ .delete uri) :
    board.handle now command =
      ({ board with store := (applied board.store command).1 }.requestAll now
        (applied board.store command).2, []) := by
  cases command with
  | update uri kind diagnostics =>
      cases changed : (board.store.replaceSlot uri kind diagnostics).2 with
      | true => simp [handle, applied, Store.update, Store.changes, changed, requestAll]
      | false => simp [handle, applied, Store.update, Store.changes, changed, requestAll]
  | replace kind results => rfl
  | clearKind kind => rfl
  | delete uri => exact absurd rfl (notDelete uri)

theorem store_handle (board : Board) (now : Nat) (command : Command) :
    (board.handle now command).1.store = (applied board.store command).1 := by
  by_cases isDelete : ∃ uri, command = .delete uri
  · obtain ⟨uri, rfl⟩ := isDelete
    rfl
  · rw [handle_eq_requestAll board now command (not_exists.mp isDelete), store_requestAll]

/-- A file that a command does not count as changed shows what it showed before. -/
theorem get_applied_of_not_mem (store : Store) (command : Command)
    (notDelete : ∀ uri, command ≠ .delete uri) (wanted : Uri)
    (notChanged : wanted ∉ (applied store command).2) :
    SameProblems (store.get wanted) ((applied store command).1.get wanted) := by
  cases command with
  | update uri kind diagnostics =>
      simp only [applied] at notChanged ⊢
      cases changed : store.changes uri kind diagnostics with
      | true =>
          rw [changed, if_pos rfl, List.mem_singleton] at notChanged
          rw [Store.get_update_of_ne kind diagnostics notChanged]
          exact .refl _
      | false => exact Store.get_update_of_unchanged changed wanted
  | replace kind results => exact store.get_updateAll_of_not_mem kind _ wanted notChanged
  | clearKind kind => exact store.get_updateAll_of_not_mem kind _ wanted notChanged
  | delete uri => exact absurd rfl (notDelete uri)

/-! ### Closing -/

theorem store_closeAll (board : Board) (windows : List Window) :
    (board.closeAll windows).1.store = board.store := by
  induction windows generalizing board with
  | nil => rfl
  | cons window rest inductionHypothesis => exact inductionHypothesis (board.cancel window.uri)

theorem window_closeAll (board : Board) (windows : List Window) :
    (board.closeAll windows).1.window = board.window := by
  induction windows generalizing board with
  | nil => rfl
  | cons window rest inductionHypothesis => exact inductionHypothesis (board.cancel window.uri)

/-- Closing publishes what the files show, all of it from the same store. -/
theorem published_closeAll (board : Board) (windows : List Window) :
    (board.closeAll windows).2 =
      windows.map fun window => board.publish window.closes window.uri := by
  induction windows generalizing board with
  | nil => rfl
  | cons window rest inductionHypothesis =>
      exact congrArg (board.publish window.closes window.uri :: ·)
        (inductionHypothesis (board.cancel window.uri))

theorem windows_closeAll (board : Board) (windows : List Window) :
    (board.closeAll windows).1.windows =
      board.windows.filter fun window => window.uri ∉ windows.map (·.uri) := by
  induction windows generalizing board with
  | nil => simp [closeAll]
  | cons window rest inductionHypothesis =>
      have later := inductionHypothesis (board.cancel window.uri)
      rw [cancel, List.filter_filter] at later
      refine later.trans (List.filter_congr fun other _ => ?_)
      rw [Bool.eq_iff_iff]
      simp only [List.map_cons, List.mem_cons, not_or, Bool.and_eq_true, decide_eq_true_eq]
      exact and_comm

theorem isOpen_closeAll (board : Board) (windows : List Window) (wanted : Uri) :
    (board.closeAll windows).1.isOpen wanted = true ↔
      board.isOpen wanted = true ∧ wanted ∉ windows.map (·.uri) := by
  induction windows generalizing board with
  | nil => simp [closeAll]
  | cons window rest inductionHypothesis =>
      have later := inductionHypothesis (board.cancel window.uri)
      rw [isOpen_cancel, and_assoc, ← not_or, ← List.mem_cons] at later
      exact later

/-- Draining publishes what the files with an open window show, in the order of files. -/
theorem published_drain (board : Board) (now : Nat) :
    (board.drain now).2 =
      (stableSort (fun left right => left ≤ right) (board.windows.map (·.uri))).map
        (board.publish now) := by
  rw [drain, published_closeAll, List.map_map]
  rfl

/-- The files that draining closes are those with an open window. -/
theorem mem_drained_iff (board : Board) (wanted : Uri) :
    wanted ∈ stableSort (fun left right => left ≤ right) (board.windows.map (·.uri)) ↔
      board.isOpen wanted = true := by
  rw [(stableSort_perm _ _).mem_iff, isOpen_iff]

end ElmDiagnostics.Board
