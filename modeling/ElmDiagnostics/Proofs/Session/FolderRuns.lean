import Mathlib.Data.List.Induction
import ElmDiagnostics.Proofs.Session.CompletionOrder

/-!
Contract: what a project run of one folder does to the files of all folders.

Owns: that every run is asked for the folder that its trigger had at the time; that a run, when it
finishes, sets the slots of its kind in the files of its folder, empties them in all other files and
touches no other slots; and that it does take the findings of another folder away.

Does not own: the order in which runs finish.
-/

set_option autoImplicit false

namespace ElmDiagnostics.Dialogue

variable {kindOf : ProjectAnalyser → Option Kind} {initial : Dialogue}

/-! ### The folder of a run -/

/-- The check is about the folder and the tree that its file has. -/
def IsCurrent (dialogue : Dialogue) (check : FileCheck) : Prop :=
  dialogue.session.resolve check.request.uri = .ok (check.request.folder, check.request.tree)

/-- What was asked in a run was asked at some point of it, in the situation of that point. -/
theorem exists_point_of_mem_asked {Question Answer : Type}
    {ledger : Dialogue → Ledger Question Answer} {asks : Dialogue → Question → Prop}
    (grew : ∀ dialogue event,
      (ledger dialogue).Grew (asks dialogue) (ledger (dialogue.step kindOf event)))
    (noneAsked : (ledger initial).asked = []) (events : List Event) :
    ∀ question ∈ (ledger (initial.run kindOf events)).asked,
      ∃ before, before <+: events ∧ asks (initial.run kindOf before) question := by
  induction events using List.reverseRecOn with
  | nil =>
      intro question isAsked
      exact absurd isAsked (by simp [run, noneAsked])
  | append_singleton events event inductionHypothesis =>
      intro question isAsked
      obtain ⟨since, asked, allNew⟩ := (grew (initial.run kindOf events) event).asked
      rw [run_concat, asked] at isAsked
      rcases List.mem_append.mp isAsked with wasAsked | isNew
      · obtain ⟨before, isPrefix, itsPoint⟩ := inductionHypothesis question wasAsked
        exact ⟨before, isPrefix.trans (List.prefix_append _ _), itsPoint⟩
      · exact ⟨events, List.prefix_append _ _, allNew question isNew⟩

theorem exists_isCurrent_of_mem_checks (noneAsked : initial.checks.asked = [])
    (events : List Event) :
    ∀ check ∈ (initial.run kindOf events).checks.asked,
      ∃ before, before <+: events ∧ (initial.run kindOf before).IsCurrent check :=
  exists_point_of_mem_asked (fun dialogue _ => checks_step dialogue fun _ _ resolved => resolved)
    noneAsked events

/-- The runs that follow on a check are triggered by its file, for its folder. -/
theorem folder_of_followUp {session : Session} {check : FileCheck} {request : ProjectRequest}
    (isRequest : request ∈ followUps kindOf session check) :
    request.trigger = check.request.uri ∧ request.folder = check.request.folder := by
  unfold followUps at isRequest
  split at isRequest
  · have isAsked := (List.mem_filter.mp isRequest).1
    unfold Session.projectRequests at isAsked
    split at isAsked
    · rcases List.mem_cons.mp isAsked with rfl | isLinter
      · exact ⟨rfl, rfl⟩
      · rw [List.mem_singleton.mp isLinter]
        exact ⟨rfl, rfl⟩
    · rw [List.mem_singleton.mp isAsked]
      exact ⟨rfl, rfl⟩
  · exact absurd isRequest (by simp)

/-- The request follows on a file check that was asked for. -/
def Follows (dialogue : Dialogue) (request : ProjectRequest) : Prop :=
  ∃ check ∈ dialogue.checks.asked,
    request.trigger = check.request.uri ∧ request.folder = check.request.folder

/-- A run is for the folder that its trigger had at some earlier point. -/
theorem exists_folderOf_of_mem_runs (noneAsked : initial.checks.asked = [])
    (noneStarted : initial.runs.asked = []) (events : List Event) :
    ∀ request ∈ (initial.run kindOf events).runs.asked, ∃ before, before <+: events ∧
      (initial.run kindOf before).session.workspaces.folderOf request.trigger =
        .ok request.folder := by
  intro request isAsked
  have grew : ∀ (dialogue : Dialogue) event,
      dialogue.runs.Grew dialogue.Follows (dialogue.step kindOf event).runs := by
    intro dialogue event
    apply runs_step
    intro check isChecked request isRequest
    exact ⟨check, isChecked, folder_of_followUp isRequest⟩
  obtain ⟨started, isEarlier, check, isChecked, isTrigger, isFolder⟩ :=
    exists_point_of_mem_asked grew noneStarted events request isAsked
  obtain ⟨before, isPrefix, wasCurrent⟩ :=
    exists_isCurrent_of_mem_checks noneAsked started check isChecked
  refine ⟨before, isPrefix.trans isEarlier, ?_⟩
  rw [isTrigger, isFolder]
  exact ((Session.resolve_eq_ok_iff _ _ _ _).mp wasCurrent).1

/-! ### A run that finishes -/

theorem slot_step_runFinished {dialogue : Dialogue} {ticket : Nat} {request : ProjectRequest}
    (waits : dialogue.runs.Waits ticket request) {kind : Kind}
    (itsKind : kindOf request.analyser = some kind) (results : ProjectResults) (uri : Uri)
    (slot : Kind) :
    (dialogue.step kindOf (.runFinished ticket (.ok results))).slot uri slot =
      if slot = kind then ((results.get? uri).getD []).map request.graded
      else dialogue.slot uri slot := by
  obtain ⟨later, accepted⟩ := waits.exists_answer (.ok results)
  rw [slot_step, sent]
  simp only [accepted]
  exact slot_send_reported dialogue itsKind results uri slot

/-- A run that reports only files of its own folder sets their slots of its kind to just what it
reports, and touches no slot of another kind anywhere. In the files of other folders it empties the
slots of its kind: they keep all their slots exactly if these were empty. -/
theorem finished_run_of_folder (session : Session) (window : Nat) (events : List Event)
    {ticket : Nat} {request : ProjectRequest} {kind : Kind} {results : ProjectResults} :
    let reached := (start session window).run kindOf events
    reached.runs.Waits ticket request → kindOf request.analyser = some kind →
      (∀ uri, (results.get? uri).isSome →
        reached.session.workspaces.ownerPath? uri = some request.folder.path) →
      let finished := reached.step kindOf (.runFinished ticket (.ok results))
      (∃ before, before <+: events ∧
        ((start session window).run kindOf before).session.workspaces.folderOf request.trigger =
          .ok request.folder) ∧
      (∀ uri, reached.session.workspaces.ownerPath? uri = some request.folder.path →
        finished.slot uri kind = ((results.get? uri).getD []).map request.graded) ∧
      (∀ uri, reached.session.workspaces.ownerPath? uri ≠ some request.folder.path →
        finished.slot uri kind = [] ∧
          ((∀ slot, finished.slot uri slot = reached.slot uri slot) ↔ reached.slot uri kind = [])) ∧
      ∀ uri slot, slot ≠ kind → finished.slot uri slot = reached.slot uri slot := by
  intro reached waits itsKind ownFiles finished
  have atKind : ∀ uri,
      finished.slot uri kind = ((results.get? uri).getD []).map request.graded := by
    intro uri
    exact (slot_step_runFinished waits itsKind results uri kind).trans (if_pos rfl)
  have atOthers : ∀ uri slot, slot ≠ kind → finished.slot uri slot = reached.slot uri slot := by
    intro uri slot isOther
    exact (slot_step_runFinished waits itsKind results uri slot).trans (if_neg isOther)
  refine ⟨?_, fun uri _ => atKind uri, ?_, atOthers⟩
  · exact exists_folderOf_of_mem_runs rfl rfl events request (List.mem_of_getElem? waits.1)
  · intro uri isForeign
    have unreported : results.get? uri = none := by
      apply Option.eq_none_iff_forall_ne_some.mpr
      intro diagnostics isReported
      exact isForeign (ownFiles uri (by rw [isReported]; rfl))
    have emptied : finished.slot uri kind = [] := by
      rw [atKind, unreported]
      rfl
    refine ⟨emptied, ?_⟩
    constructor
    · intro unchanged
      exact (unchanged kind).symm.trans emptied
    · intro wasEmpty slot
      by_cases isKind : slot = kind
      · rw [isKind, emptied, wasEmpty]
      · exact atOthers uri slot isKind

/-! ### Two folders -/

def firstFile : Uri := ⟨"file:///first/Main.elm"⟩

def secondFile : Uri := ⟨"file:///second/Main.elm"⟩

/-- A session with two folders of one file each, without lint rules. -/
def twoFolders : Session where
  workspaces := ⟨[(Folder.new "/first").insert firstFile ⟨none, [], [], default⟩,
    (Folder.new "/second").insert secondFile ⟨none, [], [], default⟩]⟩
  settings := { rulesOff := true }
  rules := .full

/-- The compiler has reported on the first folder, and runs for the second one. -/
def secondRunning : List Event :=
  [.opened firstFile, .checkAnswered 0 (.ok []),
    .runFinished 0 (.ok (.ofList [(firstFile, [finding 0])])),
    .opened secondFile, .checkAnswered 1 (.ok [])]

def secondRequest : ProjectRequest :=
  ⟨.compiler, secondFile, (Folder.new "/second").insert secondFile ⟨none, [], [], default⟩, none⟩

def secondResults : ProjectResults := .ofList [(secondFile, [finding 1])]

theorem secondRequest_waits :
    ((start twoFolders 50).run usualKinds secondRunning).runs.Waits 1 secondRequest :=
  ⟨rfl, by decide⟩

theorem secondResults_own (uri : Uri) (isReported : (secondResults.get? uri).isSome) :
    ((start twoFolders 50).run usualKinds secondRunning).session.workspaces.ownerPath? uri =
      some secondRequest.folder.path := by
  have lookedUp : secondResults.get? uri = if uri = secondFile then some [finding 1] else none :=
    Table.get?_insert ∅ secondFile uri [finding 1]
  rw [lookedUp] at isReported
  split at isReported
  next isSecond =>
    rw [isSecond]
    decide
  next => exact absurd isReported (by simp)

theorem second_run_sets_own_files :
    let reached := (start twoFolders 50).run usualKinds secondRunning
    let finished := reached.step usualKinds (.runFinished 1 (.ok secondResults))
    reached.runs.Waits 1 secondRequest ∧ usualKinds secondRequest.analyser = some .compile ∧
      (∀ uri, (secondResults.get? uri).isSome →
        reached.session.workspaces.ownerPath? uri = some secondRequest.folder.path) ∧
      finished.slot secondFile .compile = [finding 1] ∧ finished.slot firstFile .compile = [] := by
  intro reached finished
  obtain ⟨_, ofOwn, ofForeign, _⟩ :=
    finished_run_of_folder twoFolders 50 secondRunning secondRequest_waits rfl secondResults_own
  refine ⟨secondRequest_waits, rfl, secondResults_own, ?_, (ofForeign firstFile ?_).1⟩
  · exact ofOwn secondFile (by decide)
  · decide

/-- The run of the second folder takes away what the compiler found in the first. -/
theorem second_run_empties_first_folder :
    let reached := (start twoFolders 50).run usualKinds secondRunning
    let finished := reached.step usualKinds (.runFinished 1 (.ok secondResults))
    reached.runs.Waits 1 secondRequest ∧ usualKinds secondRequest.analyser = some .compile ∧
      (∀ uri, (secondResults.get? uri).isSome →
        reached.session.workspaces.ownerPath? uri = some secondRequest.folder.path) ∧
      reached.session.workspaces.ownerPath? firstFile = some (.ofString "/first") ∧
      secondRequest.folder.path ≠ .ofString "/first" ∧
      finished.slot firstFile .compile ≠ reached.slot firstFile .compile := by
  intro reached finished
  refine ⟨secondRequest_waits, rfl, secondResults_own, by decide, by decide, ?_⟩
  have emptied : finished.slot firstFile .compile = [] :=
    (slot_step_runFinished secondRequest_waits rfl secondResults firstFile .compile).trans rfl
  have held : reached.slot firstFile .compile = [finding 0] := rfl
  rw [emptied, held]
  exact (List.cons_ne_nil _ _).symm

end ElmDiagnostics.Dialogue
