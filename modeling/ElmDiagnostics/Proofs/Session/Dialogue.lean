import ElmDiagnostics.Proofs.Publication.ClientView
import ElmDiagnostics.Proofs.Session.Ledger
import ElmDiagnostics.Proofs.Session.Linting

/-!
Contract: a session whose analysers answer whenever they like.

Owns: `Dialogue`, a session with its board and the questions it has put to analysers; the steps it
can take, where any question that waits may be answered next; and which slots the commands of a
session can touch.

Does not own: time. An answer and the end of a window are steps like any other, so what holds of
every run here holds for every clock and every analyser.
-/

set_option autoImplicit false

namespace ElmDiagnostics

/-! ### What commands touch -/

/-- The command may set the slot of the file. -/
def Command.Touches : Command → Uri → Kind → Prop
  | .update uri kind _, file, slot => file = uri ∧ slot = kind
  | .replace kind _, _, slot => slot = kind
  | .clearKind kind, _, slot => slot = kind
  | .delete uri, file, _ => file = uri

theorem Board.slot_applied_of_not_touches (store : Store) {command : Command} {uri : Uri}
    {kind : Kind} (untouched : ¬ command.Touches uri kind) :
    ((applied store command).1.report uri).slot kind = (store.report uri).slot kind := by
  cases command with
  | update file slot diagnostics =>
      rw [applied, Store.slot_update]
      exact if_neg untouched
  | replace slot results =>
      rw [applied, Store.slot_replace]
      exact if_neg untouched
  | clearKind slot =>
      rw [applied, Store.slot_clearKind]
      exact if_neg untouched
  | delete file =>
      unfold Command.Touches at untouched
      rw [applied, Store.report_delete, if_neg untouched]

namespace Session

theorem refresh_commands {session : Session} {uri : Uri} {commands : List Command}
    {request : CheckRequest} (refreshed : session.refresh uri = .ok (commands, request)) :
    ∀ command ∈ commands, ∃ diagnostics, command = .update uri .lint diagnostics := by
  intro command isCommand
  obtain ⟨_, findings, _, isUpdate⟩ := (refresh_eq_ok refreshed).2.2 command isCommand
  exact ⟨findings, isUpdate⟩

theorem changed_commands {session : Session} {uri : Uri} {commands : List Command}
    {request? : Option CheckRequest} (edited : session.changed uri = .ok (commands, request?)) :
    ∀ command ∈ commands, ∃ diagnostics, command = .update uri .lint diagnostics := by
  intro command isCommand
  obtain ⟨_, findings, _, isUpdate⟩ := (changed_eq_ok edited).1 command isCommand
  exact ⟨findings, isUpdate⟩

theorem followSettings_commands (configured : Session) (previous : Settings) :
    ∀ command ∈ (configured.followSettings previous).commands,
      (∃ uri, configured.ShowsLint uri command) ∨ command = .clearKind .lint := by
  intro command isCommand
  generalize isReaction : configured.followSettings previous = effects at isCommand
  have reaction := isReaction ▸ configured.followSettings_reaction previous
  cases reaction with
  | rerun => exact .inl (configured.lintTracked_shows _ command isCommand)
  | keep => exact absurd isCommand List.not_mem_nil
  | clear => exact .inr (List.mem_singleton.mp isCommand)
  | staysOff => exact absurd isCommand List.not_mem_nil

/-- New settings touch lint results and the findings of the external linter only. -/
theorem configure_commands (session : Session) (value : Json) :
    ∀ command ∈ (session.configure value).2.commands,
      (∃ uri, (session.configure value).1.ShowsLint uri command) ∨
        command = .clearKind .lint ∨ command = .clearKind .externalLint := by
  intro command isCommand
  cases read : Settings.read value with
  | error cause =>
      rw [configure_of_refused read] at isCommand
      exact absurd isCommand List.not_mem_nil
  | ok settings =>
      rw [configure_of_read read] at isCommand ⊢
      rcases Effects.mem_commands_of_mem_andThen isCommand with isLint | isExternal
      · rcases followSettings_commands _ _ command isLint with shows | isClear
        · exact .inl shows
        · exact .inr (.inl isClear)
      · rw [Effects.commands_done, externalCommands] at isExternal
        split at isExternal
        · exact .inr (.inr (List.mem_singleton.mp isExternal))
        · exact absurd isExternal List.not_mem_nil

end Session

/-! ### Dialogues -/

/-- A question to the type checker. When a file was opened or saved, project runs start once the
question is answered; after an edit none do. -/
structure FileCheck where
  request : CheckRequest
  startsRuns : Bool

def FileCheck.isAbout (check : FileCheck) (uri : Uri) : Bool := check.request.uri = uri

def ProjectRequest.isFor (request : ProjectRequest) (analyser : ProjectAnalyser) : Bool :=
  request.analyser = analyser

/-- A session, its board and client, and its questions to analysers. -/
structure Dialogue where
  now : Nat
  session : Session
  feed : Feed
  checks : Ledger FileCheck (Except Failure (List Diagnostic))
  runs : Ledger ProjectRequest (Except Failure ProjectResults)

namespace Dialogue

/-- What can happen next. An answer names the question it is for by its place among all that were
asked of the type checker, or of the analysers of projects. -/
inductive Event where
  /-- A file is opened or saved. -/
  | opened (uri : Uri)
  | changed (uri : Uri)
  | deleted (uri : Uri)
  | configured (value : Json)
  | folderAdded (root : String)
  | treeSet (uri : Uri) (tree : Module)
  | treeRemoved (uri : Uri)
  | checkAnswered (ticket : Nat) (answer : Except Failure (List Diagnostic))
  | runFinished (ticket : Nat) (answer : Except Failure ProjectResults)
  | clock (now : Nat)
  /-- The publishing window of a file elapses. -/
  | elapsed (uri : Uri)

def start (session : Session) (window : Nat) : Dialogue :=
  ⟨0, session, .start window, .empty, .empty⟩

/-- What a kind of analyser has to say about a file. -/
def slot (dialogue : Dialogue) (uri : Uri) (kind : Kind) : List Diagnostic :=
  (dialogue.feed.board.store.report uri).slot kind

/-- Sends commands to the board. -/
def send (dialogue : Dialogue) (commands : List Command) : Dialogue :=
  { dialogue with
    feed := dialogue.feed.run (commands.map (Feed.Event.command dialogue.now)) }

section Steps

-- the kind under which each analyser of projects reports; none where there is no such analyser
variable (kindOf : ProjectAnalyser → Option Kind)

/-- The commands that follow from the answer to a project request. -/
def reported (request : ProjectRequest) (answer : Except Failure ProjectResults) : List Command :=
  match kindOf request.analyser with
  | some kind => request.answered kind answer
  | none => []

/-- The project runs that follow on a file check, of the analysers that there are. -/
def followUps (session : Session) (check : FileCheck) : List ProjectRequest :=
  if check.startsRuns then
    (session.projectRequests check.request.uri check.request.folder).filter fun request =>
      (kindOf request.analyser).isSome
  else []

/-- One step. Answers that nobody waits for change nothing, nor do events that fail, except that new
settings stay in force when an overflow cuts short what follows them. -/
def step (dialogue : Dialogue) : Event → Dialogue
  | .opened uri =>
      match dialogue.session.refresh uri with
      | .ok (commands, request) =>
          { dialogue.send commands with checks := dialogue.checks.ask ⟨request, true⟩ }
      | .error _ => dialogue
  | .changed uri =>
      match dialogue.session.changed uri with
      | .ok (commands, some request) =>
          { dialogue.send commands with checks := dialogue.checks.ask ⟨request, false⟩ }
      | .ok (commands, none) => dialogue.send commands
      | .error _ => dialogue
  | .deleted uri => dialogue.send (Session.deleted uri)
  | .configured value =>
      let (session, effects) := dialogue.session.configure value
      { dialogue.send effects.commands with session }
  | .folderAdded root =>
      { dialogue with
        session := { dialogue.session with
          workspaces := dialogue.session.workspaces.addFolder root } }
  | .treeSet uri tree =>
      match dialogue.session.workspaces.setTree uri tree with
      | .ok workspaces => { dialogue with session := { dialogue.session with workspaces } }
      | .error _ => dialogue
  | .treeRemoved uri =>
      { dialogue with
        session := { dialogue.session with
          workspaces := dialogue.session.workspaces.removeTree uri } }
  | .checkAnswered ticket answer =>
      match dialogue.checks.answer? ticket answer with
      | some (check, checks) =>
          { dialogue.send (check.request.answered answer) with
            checks
            runs := (followUps kindOf dialogue.session check).foldl Ledger.ask dialogue.runs }
      | none => dialogue
  | .runFinished ticket answer =>
      match dialogue.runs.answer? ticket answer with
      | some (request, runs) => { dialogue.send (reported kindOf request answer) with runs }
      | none => dialogue
  | .clock now => { dialogue with now }
  | .elapsed uri => { dialogue with feed := dialogue.feed.step (.elapse uri) }

def run (dialogue : Dialogue) (events : List Event) : Dialogue :=
  events.foldl (step kindOf) dialogue

end Steps

/-! ### Slots after commands -/

theorem slot_send_cons (dialogue : Dialogue) (command : Command) (commands : List Command)
    (uri : Uri) (kind : Kind) :
    (dialogue.send (command :: commands)).slot uri kind =
      ((dialogue.send [command]).send commands).slot uri kind := rfl

theorem slot_send_singleton (dialogue : Dialogue) (command : Command) (uri : Uri) (kind : Kind) :
    (dialogue.send [command]).slot uri kind =
      ((Board.applied dialogue.feed.board.store command).1.report uri).slot kind :=
  congrArg (fun store => (Store.report store uri).slot kind)
    (Board.store_handle dialogue.feed.board dialogue.now command)

theorem slot_send_of_untouched (dialogue : Dialogue) {commands : List Command} {uri : Uri}
    {kind : Kind} (untouched : ∀ command ∈ commands, ¬ command.Touches uri kind) :
    (dialogue.send commands).slot uri kind = dialogue.slot uri kind := by
  induction commands generalizing dialogue with
  | nil => rfl
  | cons command rest inductionHypothesis =>
      rw [slot_send_cons, inductionHypothesis]
      · rw [slot_send_singleton]
        exact Board.slot_applied_of_not_touches _ (untouched command (List.mem_cons_self ..))
      · intro later isLater
        exact untouched later (List.mem_cons_of_mem _ isLater)

theorem slot_elapse (dialogue : Dialogue) (file : Uri) (uri : Uri) (kind : Kind) :
    slot { dialogue with feed := dialogue.feed.step (.elapse file) } uri kind =
      dialogue.slot uri kind := by
  simp only [slot, Feed.step]
  split <;> rfl

end Dialogue

end ElmDiagnostics
