import ElmDiagnostics.Proofs.Publication.Board

/-!
Contract: the client and the store never silently diverge.

Owns: `Feed`, a board together with what its client shows; the steps it can take, in any order
and at any time; and that in every run a file without an open window is shown as the store has
it, up to reordering.

Does not own: when windows close. A window may close at any step here, so the result holds for
every clock.
-/

set_option autoImplicit false

namespace ElmDiagnostics

open Diagnostic

/-- What the client shows for each file: the last list published for it. -/
abbrev ClientView := Uri → List Diagnostic

namespace ClientView

def receive (view : ClientView) (publish : Publish) : ClientView :=
  fun uri => if uri = publish.uri then publish.diagnostics else view uri

def receiveAll (view : ClientView) (published : List Publish) : ClientView :=
  published.foldl receive view

theorem receiveAll_map (view : ClientView) (uris : List Uri) (now : Nat)
    (lists : Uri → List Diagnostic) (wanted : Uri) :
    view.receiveAll (uris.map fun uri => ⟨now, uri, lists uri⟩) wanted =
      if wanted ∈ uris then lists wanted else view wanted := by
  induction uris generalizing view with
  | nil => rfl
  | cons uri rest inductionHypothesis =>
      refine (inductionHypothesis (view.receive ⟨now, uri, lists uri⟩)).trans ?_
      by_cases inRest : wanted ∈ rest
      · simp [inRest]
      · by_cases isUri : wanted = uri <;> simp [inRest, isUri, receive]

end ClientView

/-- A board and the client it publishes to. -/
structure Feed where
  board : Board
  view : ClientView

namespace Feed

/-- What can happen to a board. -/
inductive Event where
  /-- A command arrives. -/
  | command (now : Nat) (command : Command)
  /-- A producer reads the diagnostics of a file. -/
  | read (uri : Uri)
  /-- The timer of a file elapses. -/
  | elapse (uri : Uri)

/-- An empty board whose client shows nothing. -/
def start (window : Nat) : Feed := ⟨.new window, fun _ => []⟩

/-- Moves to a board and hands what was published to the client. -/
def deliver (feed : Feed) (result : Board × List Publish) : Feed :=
  ⟨result.1, feed.view.receiveAll result.2⟩

/-- One step. Reading changes nothing, and neither does a timer whose window is gone. -/
def step (feed : Feed) : Event → Feed
  | .command now command => feed.deliver (feed.board.handle now command)
  | .read _ => feed
  | .elapse uri =>
      match feed.board.windows.find? fun window => window.uri = uri with
      | some window => feed.deliver (feed.board.close window)
      | none => feed

def run (feed : Feed) (events : List Event) : Feed := events.foldl step feed

/-- The orderly end: everything that waits for its window is published. -/
def drain (feed : Feed) (now : Nat) : Feed := feed.deliver (feed.board.drain now)

/-- A file that waits for no window is shown as the store has it. -/
def Agrees (feed : Feed) : Prop :=
  ∀ uri, feed.board.isOpen uri = true ∨
    SameProblems (feed.view uri) (feed.board.store.get uri)

theorem start_agrees (window : Nat) : (start window).Agrees :=
  fun _ => .inr (.refl [])

/-- The part of the agreement that concerns one file. -/
def AgreesAt (feed : Feed) (uri : Uri) : Prop :=
  feed.board.isOpen uri = true ∨ SameProblems (feed.view uri) (feed.board.store.get uri)

/-! ### Steps -/

/-- Opening windows for all files whose list changed keeps the agreement. -/
theorem AgreesAt.requestAll {feed : Feed} {uri : Uri} (agrees : feed.AgreesAt uri) (now : Nat)
    (store : Store) (changed : List Uri)
    (otherwiseKept : uri ∉ changed → SameProblems (feed.board.store.get uri) (store.get uri)) :
    AgreesAt ⟨{ feed.board with store }.requestAll now changed, feed.view⟩ uri := by
  unfold AgreesAt
  rw [Board.isOpen_requestAll, Board.store_requestAll]
  by_cases isChanged : uri ∈ changed
  · exact .inl (.inr isChanged)
  · rcases agrees with isOpen | shown
    · exact .inl (.inl isOpen)
    · exact .inr (shown.trans (otherwiseKept isChanged))

theorem delete_agreesAt {feed : Feed} {wanted : Uri} (agrees : feed.AgreesAt wanted) (now : Nat)
    (uri : Uri) : (feed.deliver (feed.board.handle now (.delete uri))).AgreesAt wanted := by
  change (Board.cancel _ uri).isOpen wanted = true ∨
    SameProblems (feed.view.receive ⟨now, uri, []⟩ wanted)
      ((feed.board.store.delete uri).report wanted).merged
  rw [Board.isOpen_cancel, Store.report_delete, ClientView.receive]
  by_cases isUri : wanted = uri
  · right
    simp only [isUri, ↓reduceIte, FileReport.merged_empty]
    exact .refl []
  · rcases agrees with isOpen | shown
    · exact .inl ⟨isOpen, isUri⟩
    · right
      simp only [isUri, ↓reduceIte]
      exact shown

theorem command_agreesAt {feed : Feed} {uri : Uri} (agrees : feed.AgreesAt uri) (now : Nat)
    (command : Command) : (feed.deliver (feed.board.handle now command)).AgreesAt uri := by
  by_cases isDelete : ∃ deleted, command = .delete deleted
  · obtain ⟨deleted, rfl⟩ := isDelete
    exact delete_agreesAt agrees now deleted
  · have notDelete := not_exists.mp isDelete
    rw [Board.handle_eq_requestAll feed.board now command notDelete]
    exact agrees.requestAll now _ _ fun notChanged =>
      Board.get_applied_of_not_mem feed.board.store command notDelete uri notChanged

theorem close_agreesAt {feed : Feed} {wanted : Uri} (agrees : feed.AgreesAt wanted)
    (window : Window) : (feed.deliver (feed.board.close window)).AgreesAt wanted := by
  change (feed.board.cancel window.uri).isOpen wanted = true ∨
    SameProblems (feed.view.receive (feed.board.publish window.closes window.uri) wanted)
      (feed.board.store.get wanted)
  rw [Board.isOpen_cancel, ClientView.receive, Board.publish]
  by_cases isUri : wanted = window.uri
  · right
    simp only [isUri, ↓reduceIte]
    exact .refl _
  · rcases agrees with isOpen | shown
    · exact .inl ⟨isOpen, isUri⟩
    · right
      simpa only [isUri, ↓reduceIte] using shown

theorem step_agreesAt {feed : Feed} {uri : Uri} (agrees : feed.AgreesAt uri) (event : Event) :
    (feed.step event).AgreesAt uri := by
  cases event with
  | command now command => exact command_agreesAt agrees now command
  | read file => exact agrees
  | elapse file =>
      simp only [step]
      split
      next window _ => exact close_agreesAt agrees window
      next => exact agrees

theorem run_agreesAt {feed : Feed} {uri : Uri} (agrees : feed.AgreesAt uri) (events : List Event) :
    (feed.run events).AgreesAt uri := by
  induction events generalizing feed with
  | nil => exact agrees
  | cons event rest inductionHypothesis => exact inductionHypothesis (step_agreesAt agrees event)

theorem run_agrees {feed : Feed} (agrees : feed.Agrees) (events : List Event) :
    (feed.run events).Agrees :=
  fun uri => run_agreesAt (agrees uri) events

/-! ### The orderly end -/

theorem closeAll_agrees {feed : Feed} (agrees : feed.Agrees) (windows : List Window) :
    (feed.deliver (feed.board.closeAll windows)).Agrees := by
  induction windows generalizing feed with
  | nil => exact agrees
  | cons window rest inductionHypothesis =>
      have closed := inductionHypothesis fun uri => close_agreesAt (agrees uri) window
      have unfolds : feed.deliver (feed.board.closeAll (window :: rest)) =
          (feed.deliver (feed.board.close window)).deliver
            ((feed.deliver (feed.board.close window)).board.closeAll rest) := by
        simp only [deliver, Board.closeAll, ClientView.receiveAll, List.foldl_append]
      rw [unfolds]
      exact closed

theorem drain_closes (feed : Feed) (now : Nat) (uri : Uri) :
    (feed.drain now).board.isOpen uri = false := by
  rw [Bool.eq_false_iff]
  intro stillOpen
  obtain ⟨wasOpen, notClosed⟩ := (Board.isOpen_closeAll _ _ _).mp stillOpen
  refine notClosed ?_
  rw [List.map_map]
  simpa using (Board.mem_drained_iff feed.board uri).mpr wasOpen

theorem Agrees.drain_shown {feed : Feed} (agrees : feed.Agrees) (now : Nat) (uri : Uri) :
    SameProblems ((feed.drain now).view uri) ((feed.drain now).board.store.get uri) := by
  have drained : (feed.drain now).Agrees := closeAll_agrees agrees _
  rcases drained uri with stillOpen | shown
  · rw [drain_closes] at stillOpen
    exact absurd stillOpen (by decide)
  · exact shown

/-- After every run, a file either has an open window or is shown by the client as the store
has it, up to reordering. After the orderly end no window is open, so every file is. -/
theorem client_shows_store (window : Nat) (events : List Event) (uri : Uri) :
    let reached := (start window).run events
    (reached.board.isOpen uri = true ∨
      SameProblems (reached.view uri) (reached.board.store.get uri)) ∧
    ∀ now, (reached.drain now).board.isOpen uri = false ∧
      SameProblems ((reached.drain now).view uri) ((reached.drain now).board.store.get uri) := by
  intro reached
  have agrees : reached.Agrees := run_agrees (start_agrees window) events
  exact ⟨agrees uri, fun now => ⟨drain_closes reached now uri, agrees.drain_shown now uri⟩⟩

end Feed

end ElmDiagnostics
