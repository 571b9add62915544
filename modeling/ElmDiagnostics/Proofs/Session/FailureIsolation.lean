import ElmDiagnostics.Proofs.Session.LintSettings
import ElmDiagnostics.Proofs.Session.Reaction

/-!
Contract: failures leave no trace.

Owns: `Record`, a run with all it publishes, in which the board hears of some events only; that a
run in which analysers fail is the run in which the board hears of no failure; and what failures
keep.
-/

set_option autoImplicit false

namespace ElmDiagnostics

/-- A file whose lint run has findings is looked at, and they are sent. -/
theorem Session.LintFinds.refresh_eq {session : Session} {uri : Uri} {findings : List Diagnostic}
    (enabled : session.settings.lintEnabled = true) (finds : session.LintFinds uri findings) :
    ∃ request, session.refresh uri = .ok ([.update uri .lint findings], request) := by
  obtain ⟨folder, tree, resolved, found⟩ := finds
  have linted : session.lint uri folder tree = .ok [.update uri .lint findings] := by
    unfold Session.lint
    rw [if_pos enabled]
    split at found
    next isExcluded => rw [if_pos isExcluded, found]
    next notExcluded => rw [if_neg notExcluded, found]
  refine ⟨⟨uri, tree, folder⟩, ?_⟩
  simp only [Session.refresh, resolved, bind, Except.bind, linted]
  rfl

theorem ClientView.receiveAll_append (view : ClientView) (first second : List Publish) :
    view.receiveAll (first ++ second) = (view.receiveAll first).receiveAll second :=
  List.foldl_append

namespace Dialogue

/-! ### Failures of analysers -/

/-- An analyser fails instead of answering. -/
def Event.isFailure : Event → Bool
  | .checkAnswered _ (.error _) => true
  | .runFinished _ (.error _) => true
  | _ => false

section Hearing

variable (kindOf : ProjectAnalyser → Option Kind)

/-- What a step publishes. -/
def published (dialogue : Dialogue) : Event → List Publish
  | .elapsed uri =>
      match dialogue.feed.board.windows.find? fun window => window.uri = uri with
      | some window => (dialogue.feed.board.close window).2
      | none => []
  | event => (dialogue.feed.board.handleAll dialogue.now (dialogue.sent kindOf event)).2

/-- A dialogue and all that its board has published. -/
structure Record where
  dialogue : Dialogue
  publishes : List Publish

/-- One step, of which the board learns only if it hears the event. Whatever else the step does is
done all the same. -/
def Record.step (hears : Event → Bool) (record : Record) (event : Event) : Record :=
  let reached := record.dialogue.step kindOf event
  if hears event then ⟨reached, record.publishes ++ record.dialogue.published kindOf event⟩
  else ⟨{ reached with feed := record.dialogue.feed }, record.publishes⟩

def record (dialogue : Dialogue) (hears : Event → Bool) (events : List Event) : Record :=
  events.foldl (Record.step kindOf hears) ⟨dialogue, []⟩

end Hearing

variable {kindOf : ProjectAnalyser → Option Kind}

theorem sent_of_isFailure (dialogue : Dialogue) {event : Event} (fails : event.isFailure = true) :
    dialogue.sent kindOf event = [] := by
  cases event with
  | checkAnswered ticket answer =>
      cases answer with
      | ok diagnostics => exact absurd fails (by simp [Event.isFailure])
      | error failure =>
          simp only [sent]
          split <;> rfl
  | runFinished ticket answer =>
      cases answer with
      | ok results => exact absurd fails (by simp [Event.isFailure])
      | error failure =>
          simp only [sent, reported]
          split
          · split <;> rfl
          · rfl
  | _ => exact absurd fails (by simp [Event.isFailure])

theorem Event.ne_elapsed_of_isFailure {event : Event} (fails : event.isFailure = true) :
    ∀ uri, event ≠ .elapsed uri := by
  rintro uri rfl
  exact absurd fails (by simp [isFailure])

theorem feed_step_of_isFailure (dialogue : Dialogue) {event : Event}
    (fails : event.isFailure = true) : (dialogue.step kindOf event).feed = dialogue.feed := by
  rw [feed_step dialogue (Event.ne_elapsed_of_isFailure fails), sent_of_isFailure dialogue fails]
  rfl

theorem published_eq (dialogue : Dialogue) {event : Event}
    (notElapsed : ∀ uri, event ≠ .elapsed uri) :
    dialogue.published kindOf event =
      (dialogue.feed.board.handleAll dialogue.now (dialogue.sent kindOf event)).2 := by
  cases event with
  | elapsed uri => exact absurd rfl (notElapsed uri)
  | _ => rfl

/-- A failure that the board hears of is as good as one that it does not. -/
theorem Record.step_hearing_failures (record : Record) (event : Event) :
    record.step kindOf (fun event => !event.isFailure) event =
      record.step kindOf (fun _ => true) event := by
  cases fails : event.isFailure with
  | false => simp only [step, fails, Bool.not_false]
  | true =>
      have unheard : (record.dialogue.step kindOf event).feed = record.dialogue.feed :=
        feed_step_of_isFailure record.dialogue fails
      have silent : record.dialogue.published kindOf event = [] := by
        rw [published_eq _ (Event.ne_elapsed_of_isFailure fails), sent_of_isFailure _ fails]
        rfl
      simp only [step, fails, silent, List.append_nil]
      rw [← unheard]
      rfl

theorem record_hearing_failures (dialogue : Dialogue) (events : List Event) :
    dialogue.record kindOf (fun event => !event.isFailure) events =
      dialogue.record kindOf (fun _ => true) events := by
  have sameStep : Record.step kindOf (fun event => !event.isFailure) =
      Record.step kindOf fun _ => true := by
    funext record event
    exact record.step_hearing_failures event
  unfold record
  rw [sameStep]

/-! ### What the client makes of a record -/

/-- Commands one after the other publish what the board has for them all. -/
theorem feed_send (dialogue : Dialogue) (commands : List Command) :
    (dialogue.send commands).feed =
      dialogue.feed.deliver (dialogue.feed.board.handleAll dialogue.now commands) := by
  induction commands generalizing dialogue with
  | nil => rfl
  | cons command rest inductionHypothesis =>
      have restSent := inductionHypothesis (dialogue.send [command])
      change (dialogue.send (command :: rest)).feed = _ at restSent
      rw [restSent]
      simp only [Feed.deliver, Board.handleAll, ClientView.receiveAll_append]
      rfl

theorem view_step (dialogue : Dialogue) (event : Event) :
    (dialogue.step kindOf event).feed.view =
      dialogue.feed.view.receiveAll (dialogue.published kindOf event) := by
  by_cases isElapsed : ∃ uri, event = .elapsed uri
  · obtain ⟨uri, rfl⟩ := isElapsed
    simp only [step, published, Feed.step]
    cases dialogue.feed.board.windows.find? fun window => window.uri = uri <;> rfl
  · have notElapsed := not_exists.mp isElapsed
    rw [feed_step dialogue notElapsed, feed_send, published_eq dialogue notElapsed]
    rfl

theorem record_concat (dialogue : Dialogue) (hears : Event → Bool) (events : List Event)
    (event : Event) :
    dialogue.record kindOf hears (events ++ [event]) =
      (dialogue.record kindOf hears events).step kindOf hears event := by
  unfold record
  rw [List.foldl_append]
  rfl

/-- The record that hears everything tells the run, and what its client shows. -/
theorem record_hearing_all (dialogue : Dialogue) (events : List Event) :
    (dialogue.record kindOf (fun _ => true) events).dialogue = dialogue.run kindOf events ∧
      (dialogue.run kindOf events).feed.view =
        dialogue.feed.view.receiveAll
          (dialogue.record kindOf (fun _ => true) events).publishes := by
  induction events using List.reverseRecOn with
  | nil => exact ⟨rfl, rfl⟩
  | append_singleton events event inductionHypothesis =>
      obtain ⟨isRun, shown⟩ := inductionHypothesis
      rw [record_concat, run_concat, view_step, shown, ← isRun, ← ClientView.receiveAll_append]
      exact ⟨rfl, rfl⟩

/-! ### What stays in the slots -/

theorem slot_run_of_failures (dialogue : Dialogue) {failures : List Event}
    (allFail : ∀ event ∈ failures, event.isFailure = true) (uri : Uri) (kind : Kind) :
    (dialogue.run kindOf failures).slot uri kind = dialogue.slot uri kind := by
  induction failures generalizing dialogue with
  | nil => rfl
  | cons failure rest inductionHypothesis =>
      obtain ⟨fails, othersFail⟩ := List.forall_mem_cons.mp allFail
      have kept : (dialogue.step kindOf failure).slot uri kind = dialogue.slot uri kind := by
        unfold slot
        rw [feed_step_of_isFailure dialogue fails]
      exact (inductionHypothesis _ othersFail).trans kept

/-- The event makes the session look at the file, under these settings. -/
def Event.LooksAt (settings : Settings) : Event → Uri → Prop
  | .opened file, uri => file = uri
  | .changed file, uri => file = uri ∧ settings.onlyOnSave = false
  | _, _ => False

theorem lint_step_of_looksAt (dialogue : Dialogue) {event : Event} {uri : Uri}
    {findings : List Diagnostic} (looks : event.LooksAt dialogue.session.settings uri)
    (enabled : dialogue.session.settings.lintEnabled = true)
    (finds : dialogue.session.LintFinds uri findings) :
    (dialogue.step kindOf event).slot uri .lint = findings := by
  obtain ⟨request, refreshed⟩ := finds.refresh_eq enabled
  have isSent : dialogue.sent kindOf event = [.update uri .lint findings] := by
    cases event with
    | opened file =>
        obtain rfl := looks
        simp only [sent, refreshed]
    | changed file =>
        obtain ⟨rfl, notOnlyOnSave⟩ := looks
        simp only [sent, Session.changed, notOnlyOnSave, refreshed]
        rfl
    | _ => exact absurd looks id
  rw [slot_step, isSent, slot_send_singleton, Board.applied, Store.slot_update]
  exact if_pos ⟨rfl, rfl⟩

/-- Failures leave no trace. A call that returns an error has done nothing, unless a coordinate
overflowed. Such a call takes the step of its event, up to the overflow, and so does any other call,
to the end. A run in which analysers fail is, with
all it publishes, the run in which the board hears of no failure. Failures keep every slot, and lint
results that an event brought are among what they keep. -/
theorem failures_leave_no_trace (kindOf : ProjectAnalyser → Option Kind) (dialogue : Dialogue) :
    (∀ (call : Call) (failure : Failure) (reached : Dialogue),
      call.reaction.run dialogue = .error failure reached →
        failure.TurnsDown ∧ reached = dialogue ∧ dialogue.step kindOf call.event = dialogue ∨
          (∃ cause, failure = .coordinate cause) ∧ reached = dialogue.step kindOf call.event) ∧
    (∀ (call : Call) (reached : Dialogue), call.reaction.run dialogue = .ok () reached →
      reached = dialogue.step kindOf call.event) ∧
    (∀ events : List Event,
      let heard := dialogue.record kindOf (fun _ => true) events
      dialogue.record kindOf (fun event => !event.isFailure) events = heard ∧
        heard.dialogue = dialogue.run kindOf events ∧
          heard.dialogue.feed.view = dialogue.feed.view.receiveAll heard.publishes) ∧
    ∀ failures : List Event, (∀ event ∈ failures, event.isFailure = true) →
      (∀ uri kind, (dialogue.run kindOf failures).slot uri kind = dialogue.slot uri kind) ∧
        ∀ event uri findings, event.LooksAt dialogue.session.settings uri →
          dialogue.session.settings.lintEnabled = true → dialogue.session.LintFinds uri findings →
            (dialogue.run kindOf (event :: failures)).slot uri .lint = findings := by
  refine ⟨?_, ?_, ?_, ?_⟩
  · intro call failure reached failed
    have ends := call.reaction_ends kindOf dialogue
    rw [failed] at ends
    cases ends with
    | turnedDown turnsDown nothingDone => exact .inl ⟨turnsDown, rfl, nothingDone⟩
    | overflow cause => exact .inr ⟨⟨cause, rfl⟩, rfl⟩
  · intro call reached succeeded
    have ends := call.reaction_ends kindOf dialogue
    rw [succeeded] at ends
    cases ends
    rfl
  · intro events heard
    obtain ⟨isRun, shown⟩ := dialogue.record_hearing_all events
    refine ⟨dialogue.record_hearing_failures events, isRun, ?_⟩
    rw [isRun]
    exact shown
  · intro failures allFail
    refine ⟨dialogue.slot_run_of_failures allFail, ?_⟩
    intro event uri findings looks enabled finds
    exact (slot_run_of_failures _ allFail uri .lint).trans
      (dialogue.lint_step_of_looksAt looks enabled finds)

/-! ### Analysers that crash -/

/-- A session with one file, about which the rules have something to say. -/
def portSession : Session where
  workspaces := ⟨[(Folder.new "/project").insert savedFile portModule]⟩
  settings := {}
  rules := .full

/-- The file is saved and looked at by all analysers, then it is saved again. -/
def savedAgain : List Event :=
  [.opened savedFile, .checkAnswered 0 (.ok [finding 0]),
    .runFinished 0 (.ok (.ofList [(savedFile, [finding 0])])), .opened savedFile]

/-- The type checker crashes, and the compiler after it. -/
def crashes : List Event :=
  [.checkAnswered 1 (.error (.analyser .typeInference "crashed")),
    .runFinished 1 (.error (.analyser .compile "crashed"))]

def strayFile : Uri := ⟨"file:///elsewhere/Main.elm"⟩

theorem crashes_keep_findings :
    let reached := (start portSession 50).run usualKinds savedAgain
    (∃ ended, (Call.opened strayFile).reaction.run reached = .error (.noWorkspace strayFile) ended ∧
      ended = reached) ∧
    (∀ event ∈ crashes, event.isFailure = true) ∧
    (reached.run usualKinds crashes).slot savedFile .typeInference = [finding 0] ∧
    (reached.run usualKinds crashes).slot savedFile .compile = [finding 0] ∧
    ((reached.run usualKinds (.changed savedFile :: crashes)).slot savedFile .lint).map (·.code) =
      ["unnecessary_port_module"] := by
  intro reached
  have allFail : ∀ event ∈ crashes, event.isFailure = true := by simp [crashes, Event.isFailure]
  obtain ⟨refused, _, _, kept⟩ := failures_leave_no_trace usualKinds reached
  obtain ⟨slotsKept, lintKept⟩ := kept crashes allFail
  refine ⟨⟨reached, rfl, ?_⟩, allFail, slotsKept savedFile .typeInference,
    slotsKept savedFile .compile, ?_⟩
  · rcases refused (.opened strayFile) _ reached rfl with ⟨_, unchanged, _⟩ | ⟨⟨_, overflow⟩, _⟩
    · exact unchanged
    · exact absurd overflow (by simp)
  · rw [lintKept (.changed savedFile) savedFile _ ⟨rfl, rfl⟩ rfl ⟨_, portModule, rfl, rfl⟩]
    rfl

end Dialogue

end ElmDiagnostics
