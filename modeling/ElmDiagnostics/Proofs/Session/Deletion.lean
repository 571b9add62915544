import Mathlib.Data.List.Induction
import ElmDiagnostics.Proofs.Session.CompletionOrder
import ElmDiagnostics.Proofs.Session.LateAnswer

/-!
Contract: what is shown for a file that was deleted.

Owns: that a deleted file without a tree is never linted or checked again; that everything shown for
it afterwards was brought by an answer which was outstanding at the deletion; and that such answers
do bring it back.

Does not own: a file that is given a tree again.
-/

set_option autoImplicit false

namespace ElmDiagnostics.Dialogue

variable {kindOf : ProjectAnalyser → Option Kind} {removed dialogue : Dialogue} {uri : Uri}

/-! ### After a deletion -/

/-- An answer that was outstanding at the earlier point has brought the diagnostic since. -/
def BroughtLate (kindOf : ProjectAnalyser → Option Kind) (earlier later : Dialogue) (uri : Uri)
    (diagnostic : Diagnostic) : Prop :=
  CheckedLate earlier later uri diagnostic ∨
    ∃ kind, ReportedLate kindOf earlier later uri kind diagnostic

theorem BroughtLate.step {diagnostic : Diagnostic}
    (late : BroughtLate kindOf removed dialogue uri diagnostic) (event : Event) :
    BroughtLate kindOf removed (dialogue.step kindOf event) uri diagnostic := by
  rcases late with checked | ⟨kind, reported⟩
  · exact .inl (checked.step event)
  · exact .inr ⟨kind, reported.step event⟩

/-- The file was deleted at the earlier point, and all that is shown for it has come late. -/
structure GoneSince (kindOf : ProjectAnalyser → Option Kind) (removed dialogue : Dialogue)
    (uri : Uri) : Prop where
  treeless : dialogue.session.workspaces.tree? uri = none
  noneAsked : removed.checks.Grew (fun check => check.request.uri ≠ uri) dialogue.checks
  held : ∀ kind, ∀ diagnostic ∈ dialogue.slot uri kind,
    BroughtLate kindOf removed dialogue uri diagnostic
  shown : ∀ diagnostic ∈ dialogue.feed.view uri, BroughtLate kindOf removed dialogue uri diagnostic

theorem goneSince_of_empty (treeless : dialogue.session.workspaces.tree? uri = none)
    (noneHeld : ∀ kind, dialogue.slot uri kind = []) (noneShown : dialogue.feed.view uri = []) :
    GoneSince kindOf dialogue dialogue uri := by
  refine ⟨treeless, .refl _, ?_, ?_⟩
  · intro kind diagnostic isHeld
    rw [noneHeld] at isHeld
    exact absurd isHeld (by simp)
  · intro diagnostic isShown
    rw [noneShown] at isShown
    exact absurd isShown (by simp)

/-- What the store holds for the file has come late. -/
theorem GoneSince.get (gone : GoneSince kindOf removed dialogue uri) :
    ∀ diagnostic ∈ dialogue.feed.board.store.get uri,
      BroughtLate kindOf removed dialogue uri diagnostic := by
  intro diagnostic isMerged
  obtain ⟨kind, isHeld⟩ := FileReport.exists_slot_of_mem_merged isMerged
  exact gone.held kind diagnostic isHeld

theorem GoneSince.step (gone : GoneSince kindOf removed dialogue uri)
    (noneStarted : removed.runs.Grew (fun _ => False) dialogue.runs) {event : Event}
    (noTree : ∀ tree, event ≠ .treeSet uri tree) :
    GoneSince kindOf removed (dialogue.step kindOf event) uri := by
  have treelessAfter := tree?_sessionAfter_of_none gone.treeless noTree
  refine ⟨?_, gone.noneAsked.trans ?_, ?_, ?_⟩
  · rw [session_step]
    exact treelessAfter
  · -- without a tree the file is not checked
    apply checks_step
    intro check _ resolved isUri
    have hasTree := (Session.exists_resolve_iff _ _ _).mp ⟨_, isUri ▸ resolved⟩
    exact absurd (gone.treeless.symm.trans hasTree) (by simp)
  · intro kind diagnostic isHeld
    rcases mem_slot_step isHeld with wasHeld | brought
    · exact (gone.held kind diagnostic wasHeld).step event
    · cases brought with
      | lint _ _ finds _ =>
          -- nor is it linted
          have hasTree := finds.isSome_tree?
          rw [treelessAfter] at hasTree
          exact absurd hasTree (by simp)
      | check waits isReported =>
          have waited := gone.noneAsked.waits waits (by simp)
          exact .inl (checkedLate_of_answered waits waited isReported)
      | run waits itsKind isReported =>
          have waited := noneStarted.waits waits id
          exact .inr ⟨kind, reportedLate_of_finished waits waited itsKind isReported⟩
  · intro diagnostic isShown
    rcases mem_view_step isShown with wasShown | wasHeld
    · exact (gone.shown diagnostic wasShown).step event
    · exact (gone.get diagnostic wasHeld).step event

theorem runs_run (dialogue : Dialogue) (events : List Event) :
    dialogue.runs.Grew (fun _ => True) (dialogue.run kindOf events).runs := by
  induction events using List.reverseRecOn with
  | nil => exact .refl _
  | append_singleton events event inductionHypothesis =>
      rw [run_concat]
      exact inductionHypothesis.trans (runs_step _ fun _ _ _ _ => trivial)

theorem GoneSince.run (gone : GoneSince kindOf removed removed uri) (after : List Event)
    (noTree : ∀ tree, .treeSet uri tree ∉ after)
    (noneStarted : (removed.run kindOf after).runs.asked = removed.runs.asked) :
    GoneSince kindOf removed (removed.run kindOf after) uri := by
  induction after using List.reverseRecOn with
  | nil => exact gone
  | append_singleton events event inductionHypothesis =>
      rw [run_concat] at noneStarted ⊢
      -- no run has been started by now, so none had been one event earlier
      have grewLater : (removed.run kindOf events).runs.Grew (fun _ => True)
          ((removed.run kindOf events).step kindOf event).runs :=
        runs_step _ fun _ _ _ _ => trivial
      have noneSoFar := (runs_run removed events).nothing_asked grewLater noneStarted
      obtain ⟨since, sameAsked, none⟩ := noneSoFar.asked
      refine (inductionHypothesis ?_ ?_).step noneSoFar ?_
      · intro tree isSet
        exact noTree tree (List.mem_append_left _ isSet)
      · rw [sameAsked, List.eq_nil_iff_forall_not_mem.mpr none, List.append_nil]
      · intro tree isSet
        exact noTree tree (List.mem_append_right _ (List.mem_singleton.mpr isSet.symm))

/-- Deleting a file and removing its tree, in either order. -/
def Removes (uri : Uri) (events : List Event) : Prop :=
  events = [.deleted uri, .treeRemoved uri] ∨ events = [.treeRemoved uri, .deleted uri]

theorem goneSince_of_removes {gone : List Event} (removes : Removes uri gone)
    (dialogue : Dialogue) :
    GoneSince kindOf (dialogue.run kindOf gone) (dialogue.run kindOf gone) uri := by
  have treeless : ∀ workspaces : Workspaces, (workspaces.removeTree uri).tree? uri = none := by
    intro workspaces
    rw [Workspaces.tree?_removeTree, if_pos rfl]
  have noneHeld : ∀ dialogue : Dialogue, ∀ kind,
      (dialogue.step kindOf (.deleted uri)).slot uri kind = [] :=
    fun dialogue => slot_step_deleted dialogue uri
  have noneShown : ∀ dialogue : Dialogue,
      (dialogue.step kindOf (.deleted uri)).feed.view uri = [] :=
    fun dialogue => view_step_deleted dialogue uri
  rcases removes with rfl | rfl
  · exact goneSince_of_empty (treeless _) (noneHeld dialogue) (noneShown dialogue)
  · exact goneSince_of_empty (treeless _) (noneHeld _) (noneShown _)

/-- When a file has been deleted and its tree removed, and neither is its tree set again nor a
project run started, then whatever the store holds for the file and whatever the client shows was
brought by a check of the file or a project run that was outstanding at the deletion. If these bring
nothing, the file stays clear. -/
theorem deleted_file_shows_late_answers_only (session : Session) (window : Nat)
    (before gone after : List Event) (uri : Uri) (removes : Removes uri gone)
    (noTree : ∀ tree, .treeSet uri tree ∉ after) :
    let removed := (start session window).run kindOf (before ++ gone)
    let reached := removed.run kindOf after
    reached.runs.asked = removed.runs.asked →
      (∀ diagnostic ∈ reached.feed.board.store.get uri,
        BroughtLate kindOf removed reached uri diagnostic) ∧
      (∀ diagnostic ∈ reached.feed.view uri, BroughtLate kindOf removed reached uri diagnostic) ∧
      ((∀ diagnostic, ¬ BroughtLate kindOf removed reached uri diagnostic) →
        reached.feed.board.store.get uri = [] ∧ reached.feed.view uri = []) := by
  intro removed reached noneStarted
  have isRemoved : removed = ((start session window).run kindOf before).run kindOf gone := by
    unfold removed run
    rw [List.foldl_append]
  have gone : GoneSince kindOf removed removed uri := by
    rw [isRemoved]
    exact goneSince_of_removes removes _
  have goneSince := gone.run after noTree noneStarted
  refine ⟨goneSince.get, goneSince.shown, ?_⟩
  intro nothingLate
  constructor
  · apply List.eq_nil_iff_forall_not_mem.mpr
    intro diagnostic isHeld
    exact nothingLate diagnostic (goneSince.get diagnostic isHeld)
  · apply List.eq_nil_iff_forall_not_mem.mpr
    intro diagnostic isShown
    exact nothingLate diagnostic (goneSince.shown diagnostic isShown)

/-! ### Files that come back -/

def fileDeleted : List Event := [.deleted savedFile, .treeRemoved savedFile]

/-- An edit was being checked when the file was deleted. -/
def checkedAfterwards : List Event := [.checkAnswered 0 (.ok [finding 0]), .elapsed savedFile]

/-- The compiler was running when the file was deleted. -/
def compiledAfterwards : List Event :=
  [.runFinished 0 (.ok (.ofList [(savedFile, [finding 0])])), .elapsed savedFile]

def savedBefore : List Event := [.opened savedFile, .checkAnswered 0 (.ok [])]

theorem get_compiledAfterwards :
    (((start savingSession 50).run usualKinds (savedBefore ++ fileDeleted)).run usualKinds
      compiledAfterwards).feed.board.store.get savedFile = [finding 0] := rfl

theorem compiled_after_deletion_is_late :
    Removes savedFile fileDeleted ∧ (∀ tree, .treeSet savedFile tree ∉ compiledAfterwards) ∧
      let removed := (start savingSession 50).run usualKinds (savedBefore ++ fileDeleted)
      let reached := removed.run usualKinds compiledAfterwards
      reached.runs.asked = removed.runs.asked ∧
        BroughtLate usualKinds removed reached savedFile (finding 0) := by
  have removes : Removes savedFile fileDeleted := .inl rfl
  have noTree : ∀ tree, .treeSet savedFile tree ∉ compiledAfterwards := by
    intro tree
    simp [compiledAfterwards]
  refine ⟨removes, noTree, ?_⟩
  intro removed reached
  have noneStarted : reached.runs.asked = removed.runs.asked := rfl
  have late := (deleted_file_shows_late_answers_only savingSession 50 savedBefore fileDeleted
    compiledAfterwards savedFile removes noTree noneStarted).1
  refine ⟨noneStarted, late (finding 0) ?_⟩
  rw [get_compiledAfterwards]
  exact List.mem_singleton_self _

/-- A check and a compiler run that come in after the deletion of the file bring it back, in the
store and for the client. -/
theorem late_answers_revive_deleted_file :
    (let removed := (start savingSession 50).run usualKinds ([.changed savedFile] ++ fileDeleted)
      let reached := removed.run usualKinds checkedAfterwards
      reached.runs.asked = removed.runs.asked ∧
        reached.feed.board.store.get savedFile ≠ [] ∧ reached.feed.view savedFile ≠ []) ∧
    (let removed := (start savingSession 50).run usualKinds (savedBefore ++ fileDeleted)
      let reached := removed.run usualKinds compiledAfterwards
      reached.runs.asked = removed.runs.asked ∧
        reached.feed.board.store.get savedFile ≠ [] ∧ reached.feed.view savedFile ≠ []) := by
  constructor
  · intro removed reached
    have isHeld : reached.feed.board.store.get savedFile = [finding 0] := rfl
    have isShown : reached.feed.view savedFile = [finding 0] := rfl
    rw [isHeld, isShown]
    exact ⟨rfl, List.cons_ne_nil _ _, List.cons_ne_nil _ _⟩
  · intro removed reached
    have isShown : reached.feed.view savedFile = [finding 0] := rfl
    rw [get_compiledAfterwards, isShown]
    exact ⟨rfl, List.cons_ne_nil _ _, List.cons_ne_nil _ _⟩

end ElmDiagnostics.Dialogue
