import Mathlib.Data.List.Induction
import ElmDiagnostics.Proofs.Session.CompletionOrder
import ElmDiagnostics.Proofs.Session.LateAnswer

/-!
Contract: what is left of the external linter once settings turn it off.

Owns: that turning the linter off empties its slots in every file; that as long as it stays off,
nothing gets into them but the findings of runs which were under way at that moment; and that these
findings do get there.

Does not own: the severity of findings while the linter is on.
-/

set_option autoImplicit false

namespace ElmDiagnostics.Dialogue

variable {kindOf : ProjectAnalyser → Option Kind}

/-! ### Turning the linter off -/

/-- Settings that turn the linter off and are followed to the end empty its slots. -/
theorem slot_externalLint_of_configured {dialogue : Dialogue} {value : Json}
    (safe : ¬ dialogue.session.Overflows value)
    (wasOn : dialogue.session.settings.externalLintEnabled = true)
    (isOff : (dialogue.session.configure value).1.settings.externalLintEnabled = false)
    (uri : Uri) :
    (dialogue.send (dialogue.session.configure value).2.commands).slot uri .externalLint = [] := by
  cases read : Settings.read value with
  | error cause =>
      rw [Session.configure_of_refused read, wasOn] at isOff
      exact absurd isOff (by simp)
  | ok settings =>
      obtain ⟨followed, _, _, isConfigured⟩ := Session.configure_of_not_overflows read safe
      rw [isConfigured] at isOff ⊢
      have turnsOff : settings.externalLintEnabled = false := isOff
      have clears : Session.externalCommands dialogue.session.settings settings =
          [.clearKind .externalLint] := by
        simp [Session.externalCommands, wasOn, turnsOff]
      rw [Effects.commands_done, clears, send_append, slot_send_singleton, Board.applied,
        Store.slot_clearKind, if_pos rfl]

/-- The step that turns the linter off empties its slots. -/
theorem slots_empty_of_switched_off {dialogue : Dialogue} {event : Event}
    (safe : ∀ value, event = .configured value → ¬ dialogue.session.Overflows value)
    (wasOn : dialogue.session.settings.externalLintEnabled = true)
    (isOff : (dialogue.step kindOf event).session.settings.externalLintEnabled = false) :
    (∃ value, event = .configured value) ∧
      ∀ uri, (dialogue.step kindOf event).slot uri .externalLint = [] := by
  rw [session_step] at isOff
  by_cases isConfigured : ∃ value, event = .configured value
  · refine ⟨isConfigured, ?_⟩
    intro uri
    obtain ⟨value, rfl⟩ := isConfigured
    rw [slot_step]
    exact slot_externalLint_of_configured (safe value rfl) wasOn isOff uri
  · rw [settings_sessionAfter (not_exists.mp isConfigured), wasOn] at isOff
    exact absurd isOff (by simp)

/-- While the linter is off, nothing asks for its runs. -/
theorem analyser_of_followUp_of_off {session : Session} {check : FileCheck}
    {request : ProjectRequest} (isOff : session.settings.externalLintEnabled = false)
    (isRequest : request ∈ followUps kindOf session check) :
    request.analyser ≠ .externalLinter := by
  have noSeverity : session.settings.externalLint.severity? = none := by
    simpa [Settings.externalLintEnabled] using isOff
  unfold followUps at isRequest
  split at isRequest
  · have isAsked := (List.mem_filter.mp isRequest).1
    rw [Session.projectRequests, noSeverity] at isAsked
    rw [List.mem_singleton.mp isAsked]
    simp
  · exact absurd isRequest (by simp)

/-! ### While the linter stays off -/

/-- The linter was turned off at the earlier point, and since then its slots have been given only
what runs report that were under way there. -/
structure OffSince (kindOf : ProjectAnalyser → Option Kind) (switched dialogue : Dialogue) :
    Prop where
  off : dialogue.session.settings.externalLintEnabled = false
  noneStarted : switched.runs.Grew (fun request => request.analyser ≠ .externalLinter) dialogue.runs
  late : ∀ uri, ∀ diagnostic ∈ dialogue.slot uri .externalLint,
    ReportedLate kindOf switched dialogue uri .externalLint diagnostic

theorem offSince_of_empty {dialogue : Dialogue}
    (isOff : dialogue.session.settings.externalLintEnabled = false)
    (empty : ∀ uri, dialogue.slot uri .externalLint = []) : OffSince kindOf dialogue dialogue := by
  refine ⟨isOff, .refl _, ?_⟩
  intro uri diagnostic isHeld
  rw [empty] at isHeld
  exact absurd isHeld (by simp)

theorem OffSince.step (otherKind : kindOf .compiler ≠ some .externalLint)
    {switched dialogue : Dialogue} (since : OffSince kindOf switched dialogue) {event : Event}
    (staysOff : (dialogue.step kindOf event).session.settings.externalLintEnabled = false) :
    OffSince kindOf switched (dialogue.step kindOf event) := by
  refine ⟨staysOff, since.noneStarted.trans ?_, ?_⟩
  · apply runs_step
    intro check _ request isRequest
    exact analyser_of_followUp_of_off since.off isRequest
  · intro uri diagnostic isHeld
    rcases mem_slot_step isHeld with wasHeld | brought
    · exact (since.late uri diagnostic wasHeld).step event
    · cases brought with
      | @run ticket request results _ _ _ waits itsKind isReported =>
          -- the compiler reports under another kind, so this is a run of the linter
          have isLinter : ¬ request.analyser ≠ .externalLinter := by
            intro notLinter
            cases itsAnalyser : request.analyser with
            | compiler => exact otherKind (itsAnalyser ▸ itsKind)
            | externalLinter => exact notLinter itsAnalyser
          exact reportedLate_of_finished waits (since.noneStarted.waits waits isLinter) itsKind
            isReported

/-- The events end with settings that turn the linter off, or there are none yet. -/
def BeginsOff (kindOf : ProjectAnalyser → Option Kind) (initial : Dialogue) (before : List Event) :
    Prop :=
  before = [] ∨ ∃ earlier value, before = earlier ++ [.configured value] ∧
    (initial.run kindOf earlier).session.settings.externalLintEnabled = true

/-- The point at which the linter was turned off. -/
theorem exists_switched_off (otherKind : kindOf .compiler ≠ some .externalLint) {initial : Dialogue}
    (initiallyEmpty : ∀ uri, initial.slot uri .externalLint = []) (events : List Event)
    (never : NeverOverflows kindOf initial events)
    (isOff : (initial.run kindOf events).session.settings.externalLintEnabled = false) :
    ∃ before after, events = before ++ after ∧ BeginsOff kindOf initial before ∧
      (∀ uri, (initial.run kindOf before).slot uri .externalLint = []) ∧
      ∀ since, since <+: after →
        OffSince kindOf (initial.run kindOf before) (initial.run kindOf (before ++ since)) := by
  induction events using List.reverseRecOn with
  | nil =>
      refine ⟨[], [], rfl, .inl rfl, initiallyEmpty, ?_⟩
      intro since isPrefix
      rw [List.prefix_nil.mp isPrefix]
      exact offSince_of_empty isOff initiallyEmpty
  | append_singleton events event inductionHypothesis =>
      rw [run_concat] at isOff
      cases wasOff : (initial.run kindOf events).session.settings.externalLintEnabled with
      | true =>
          -- the last event turns the linter off, so the point is the end of the run
          have safe : ∀ value, event = .configured value →
              ¬ (initial.run kindOf events).session.Overflows value := by
            rintro value rfl
            exact never events value List.prefix_rfl
          obtain ⟨⟨value, rfl⟩, empty⟩ := slots_empty_of_switched_off safe wasOff isOff
          have begins : BeginsOff kindOf initial (events ++ [.configured value]) :=
            .inr ⟨events, value, rfl, wasOff⟩
          refine ⟨events ++ [.configured value], [], by simp, begins, ?_, ?_⟩
          · rw [run_concat]
            exact empty
          · intro since isPrefix
            rw [List.prefix_nil.mp isPrefix, List.append_nil, run_concat]
            exact offSince_of_empty isOff empty
      | false =>
          obtain ⟨before, after, rfl, begins, empty, offSince⟩ :=
            inductionHypothesis (never.of_prefix (List.prefix_append _ _)) wasOff
          refine ⟨before, after ++ [event], by simp, begins, empty, ?_⟩
          intro since isPrefix
          rcases List.prefix_concat_iff.mp isPrefix with rfl | isEarlier
          · rw [← List.append_assoc, run_concat]
            exact (offSince after List.prefix_rfl).step otherKind isOff
          · exact offSince since isEarlier

/-- In a run without overflow, whenever the external linter is off, each of its findings that a file
still holds was reported by a run that was under way when the linter was turned off, and finished
later. Turning it off empties its slots, so without such a run no file holds any. -/
theorem external_findings_are_late (otherKind : kindOf .compiler ≠ some .externalLint)
    (session : Session) (window : Nat) (events : List Event)
    (never : NeverOverflows kindOf (start session window) events)
    (isOff : ((start session window).run kindOf events).session.settings.externalLintEnabled =
      false) :
    let reached := fun events => (start session window).run kindOf events
    ∃ before after, events = before ++ after ∧ BeginsOff kindOf (start session window) before ∧
      (∀ since, since <+: after →
        (reached (before ++ since)).session.settings.externalLintEnabled = false) ∧
      (∀ uri, (reached before).slot uri .externalLint = []) ∧
      (∀ uri, ∀ diagnostic ∈ (reached events).slot uri .externalLint,
        ReportedLate kindOf (reached before) (reached events) uri .externalLint diagnostic) ∧
      ((∀ ticket request, (reached before).runs.Waits ticket request →
          request.analyser = .compiler) →
        ∀ uri, (reached events).slot uri .externalLint = []) := by
  intro reached
  obtain ⟨before, after, rfl, begins, empty, offSince⟩ :=
    exists_switched_off otherKind (fun _ => rfl) events never isOff
  have late := (offSince after List.prefix_rfl).late
  refine ⟨before, after, rfl, begins, fun since isPrefix => (offSince since isPrefix).off, empty,
    late, ?_⟩
  intro onlyCompiler uri
  apply List.eq_nil_iff_forall_not_mem.mpr
  intro diagnostic isHeld
  obtain ⟨ticket, request, results, waited, itsKind, _⟩ := late uri diagnostic isHeld
  rw [onlyCompiler ticket request waited] at itsKind
  exact otherKind itsKind

/-! ### A run that outlives the linter -/

/-- The external linter is on, and shows its findings as warnings. -/
def reviewedSession : Session :=
  { savingSession with settings := { rulesOff := true, externalLint := .warning } }

def reviewTurnedOff : Json :=
  .object [("disableElmLSDiagnostics", .bool true), ("elmReviewDiagnostics", .string "off")]

/-- The file is saved, and the linter is turned off while its run goes on. -/
def turnedOffDuringRun : List Event :=
  [.opened savedFile, .checkAnswered 0 (.ok []), .configured reviewTurnedOff,
    .runFinished 1 (.ok (.ofList [(savedFile, [finding 0])]))]

theorem slot_turnedOffDuringRun :
    ((start reviewedSession 50).run usualKinds turnedOffDuringRun).slot savedFile .externalLint =
      [{ finding 0 with severity := .warning }] := rfl

theorem turnedOffDuringRun_neverOverflows :
    NeverOverflows usualKinds (start reviewedSession 50) turnedOffDuringRun := by
  have noSettings : ∀ value, .configured value ∉ turnedOffDuringRun.take 2 := by
    simp [turnedOffDuringRun]
  have upToSettings : NeverOverflows usualKinds (start reviewedSession 50)
      (turnedOffDuringRun.take 2 ++ [.configured reviewTurnedOff]) := by
    apply (neverOverflows_of_no_settings noSettings).concat
    rintro value same ⟨cause, overflow⟩
    obtain rfl := Event.configured.inj same
    exact Option.some_ne_none _ overflow.symm
  apply upToSettings.concat
  intro value same
  exact Event.noConfusion same

theorem turnedOffDuringRun_finding_late :
    let reached := fun events => (start reviewedSession 50).run usualKinds events
    usualKinds .compiler ≠ some .externalLint ∧
      NeverOverflows usualKinds (start reviewedSession 50) turnedOffDuringRun ∧
      (reached turnedOffDuringRun).session.settings.externalLintEnabled = false ∧
      ∃ before after, turnedOffDuringRun = before ++ after ∧
        (∀ uri, (reached before).slot uri .externalLint = []) ∧
        ReportedLate usualKinds (reached before) (reached turnedOffDuringRun) savedFile
          .externalLint { finding 0 with severity := .warning } := by
  intro reached
  have otherKind : usualKinds .compiler ≠ some .externalLint := by decide
  have isOff : (reached turnedOffDuringRun).session.settings.externalLintEnabled = false := rfl
  obtain ⟨before, after, split, _, _, empty, late, _⟩ :=
    external_findings_are_late otherKind reviewedSession 50 turnedOffDuringRun
      turnedOffDuringRun_neverOverflows isOff
  refine ⟨otherKind, turnedOffDuringRun_neverOverflows, isOff, before, after, split, empty,
    late savedFile _ ?_⟩
  rw [slot_turnedOffDuringRun]
  exact List.mem_singleton_self _

/-- A run that finishes after the linter was turned off still shows its findings. -/
theorem late_run_shows_while_off :
    usualKinds .externalLinter = some .externalLint ∧
      usualKinds .compiler ≠ some .externalLint ∧
      let reached := (start reviewedSession 50).run usualKinds turnedOffDuringRun
      reached.session.settings.externalLintEnabled = false ∧
        reached.slot savedFile .externalLint ≠ [] := by
  refine ⟨rfl, by decide, rfl, ?_⟩
  rw [slot_turnedOffDuringRun]
  exact List.cons_ne_nil _ _

end ElmDiagnostics.Dialogue
