import ElmDiagnostics.Proofs.Publication.Timeline
import ElmDiagnostics.Proofs.Source.ByteOrder
import ElmDiagnostics.Publication.Service

/-!
Contract: a service publishes every change in time, and nothing twice.

Owns: runs of a service from its start to its orderly end, the history of a run, and what it tells
about each file: which change a publication answers, when a change is published at the latest, what
comes after a deletion, and what the end publishes.

Does not own: a service that is aborted, which owes its client nothing.
-/

set_option autoImplicit false

namespace ElmDiagnostics

/-! ### Moving a board -/

namespace Board

/-- The moments of a board that is moved at the given times. -/
def moments (board : Board) : List (Nat × Cause) → List Moment
  | [] => []
  | (time, cause) :: rest => ⟨time, cause, board⟩ :: (board.take time cause).1.moments rest

def takeAll (board : Board) : List (Nat × Cause) → Board × List Publish
  | [] => (board, [])
  | (time, cause) :: rest =>
      let (moved, published) := board.take time cause
      let (final, publishedLater) := moved.takeAll rest
      (final, published ++ publishedLater)

theorem published_takeAll (board : Board) (moves : List (Nat × Cause)) :
    (board.takeAll moves).2 = (board.moments moves).flatMap (·.published) := by
  induction moves generalizing board with
  | nil => rfl
  | cons move rest inductionHypothesis =>
      exact congrArg ((board.take move.1 move.2).2 ++ ·)
        (inductionHypothesis (board.take move.1 move.2).1)

theorem takeAll_singleton (board : Board) (time : Nat) (cause : Cause) :
    board.takeAll [(time, cause)] = board.take time cause := by
  simp [takeAll]

theorem takeAll_append (board : Board) (moves others : List (Nat × Cause)) :
    board.takeAll (moves ++ others) =
      (((board.takeAll moves).1.takeAll others).1,
        (board.takeAll moves).2 ++ ((board.takeAll moves).1.takeAll others).2) := by
  induction moves generalizing board with
  | nil => rfl
  | cons move rest inductionHypothesis =>
      rw [List.cons_append, takeAll, takeAll]
      dsimp only
      rw [inductionHypothesis, List.append_assoc]

theorem moments_append (board : Board) (moves others : List (Nat × Cause)) :
    board.moments (moves ++ others) =
      board.moments moves ++ (board.takeAll moves).1.moments others := by
  induction moves generalizing board with
  | nil => rfl
  | cons move rest inductionHypothesis =>
      exact congrArg (Moment.mk move.1 move.2 board :: ·)
        (inductionHypothesis (board.take move.1 move.2).1)

theorem map_time_moments (board : Board) (moves : List (Nat × Cause)) :
    (board.moments moves).map (·.time) = moves.map (·.1) := by
  induction moves generalizing board with
  | nil => rfl
  | cons move rest inductionHypothesis =>
      exact congrArg (move.1 :: ·) (inductionHypothesis (board.take move.1 move.2).1)

/-- Commands that are sent together. -/
def sendings (now : Nat) (commands : List Command) : List (Nat × Cause) :=
  commands.map fun command => (now, .command command)

/-- Windows that close, each at its time. -/
def closings (windows : List Window) : List (Nat × Cause) :=
  windows.map fun window => (window.closes, .timer window)

theorem takeAll_sendings (board : Board) (now : Nat) (commands : List Command) :
    board.takeAll (sendings now commands) = board.handleAll now commands := by
  induction commands generalizing board with
  | nil => rfl
  | cons command rest inductionHypothesis =>
      unfold handleAll
      dsimp only
      rw [← inductionHypothesis]
      rfl

theorem takeAll_closings (board : Board) (windows : List Window) :
    board.takeAll (closings windows) = board.closeAll windows := by
  induction windows generalizing board with
  | nil => rfl
  | cons window rest inductionHypothesis =>
      unfold closeAll
      dsimp only
      rw [← inductionHypothesis]
      rfl

end Board

/-! ### Runs of a service -/

namespace Service

/-- What can be done with a service. Reading changes nothing, so it is left out. -/
inductive Action where
  | send (commands : List Command)
  | sleep (duration : Nat)
  | retain
  | release

def act (service : Service) : Action → Service × List Publish
  | .send commands => service.send commands
  | .sleep duration => service.sleep duration
  | .retain => (service.retain, [])
  | .release => service.release

def run (service : Service) : List Action → Service × List Publish
  | [] => (service, [])
  | action :: rest =>
      let (next, published) := service.act action
      let (final, publishedLater) := next.run rest
      (final, published ++ publishedLater)

/-- How an action moves the board: commands at the present time, windows at the times they close,
and the end. -/
def moves (service : Service) (action : Action) : List (Nat × Cause) :=
  match service.state, action with
  | .running _, .send commands =>
      let sent := Board.sendings service.now commands
      sent ++ Board.closings ((service.board.takeAll sent).1.due service.now)
  | .running _, .sleep duration => Board.closings (service.board.due (service.now + duration))
  | .running (_ + 2), .release => []
  | .running _, .release => [(service.now, .farewell)]
  | _, _ => []

/-- All moments of a run. -/
def history (service : Service) : List Action → List Moment
  | [] => []
  | action :: rest =>
      service.board.moments (service.moves action) ++ (service.act action).1.history rest

/-- The moves of an action lead to its result and publish what it publishes. -/
theorem takeAll_moves (service : Service) (action : Action) :
    service.board.takeAll (service.moves action) =
      ((service.act action).1.board, (service.act action).2) := by
  obtain ⟨board, now, state⟩ := service
  cases state with
  | running holders =>
      cases action with
      | send commands =>
          unfold moves
          dsimp only
          rw [Board.takeAll_append, Board.takeAll_closings, Board.takeAll_sendings]
          rfl
      | sleep duration => exact board.takeAll_closings _
      | retain => rfl
      | release =>
          match holders with
          | 0 | 1 => exact board.takeAll_singleton now .farewell
          | _ + 2 => rfl
  | stopped | aborted => cases action <;> rfl

theorem published_run (service : Service) (actions : List Action) :
    (service.run actions).2 = (service.history actions).flatMap (·.published) := by
  induction actions generalizing service with
  | nil => rfl
  | cons action rest inductionHypothesis =>
      unfold run history
      dsimp only
      rw [inductionHypothesis, List.flatMap_append, ← Board.published_takeAll, takeAll_moves]

end Service

/-! ### Timelines of runs -/

/-- Since windows stand in the order in which they close, those that are due come first. -/
theorem Board.Orderly.windows_eq_due_append {board : Board} (orderly : board.Orderly) (now : Nat) :
    board.windows = board.due now ++ board.windows.filter fun window => now < window.closes := by
  unfold Board.due
  have inOrder := orderly.inOrder
  generalize board.windows = windows at inOrder
  induction windows with
  | nil => rfl
  | cons window rest inductionHypothesis =>
      obtain ⟨isFirst, restInOrder⟩ := List.pairwise_cons.mp inOrder
      by_cases isDue : window.closes ≤ now
      · rw [List.filter_cons_of_pos (by simpa using isDue),
          List.filter_cons_of_neg (by simpa using isDue), List.cons_append,
          ← inductionHypothesis restInOrder]
      · have noneDue : ∀ other ∈ window :: rest, ¬ other.closes ≤ now := by
          intro other isOther
          rcases List.mem_cons.mp isOther with rfl | isRest
          · exact isDue
          · have notEarlier := isFirst other isRest
            omega
        rw [List.filter_eq_nil_iff.mpr (by simpa using noneDue), List.nil_append,
          List.filter_eq_self.mpr (by simpa using noneDue)]

namespace Timeline

variable {window : Nat} {history : List Moment} {board : Board}

theorem sendings (timeline : Timeline window history board) {now : Nat}
    (past : ∀ moment ∈ history, moment.time ≤ now)
    (notOverdue : ∀ pending ∈ board.windows, now ≤ pending.closes) (commands : List Command) :
    Timeline window (history ++ board.moments (Board.sendings now commands))
      (board.takeAll (Board.sendings now commands)).1 := by
  induction commands generalizing history board with
  | nil => exact (List.append_nil history).symm ▸ timeline
  | cons command rest inductionHypothesis =>
      have follows : Moment.Follows ⟨now, .command command, board⟩ history :=
        ⟨past, notOverdue, nofun⟩
      have moved := timeline.next follows
      have stillPast : ∀ moment ∈ history ++ [⟨now, .command command, board⟩], moment.time ≤ now :=
        List.forall_mem_append.mpr ⟨past, List.forall_mem_singleton.mpr (Nat.le_refl now)⟩
      have finished := inductionHypothesis moved stillPast
        (moved.notOverdue _ (List.mem_append_right _ (List.mem_singleton_self _)))
      rw [List.append_assoc] at finished
      exact finished

/-- Windows close in the order in which they stand. -/
theorem closings (timeline : Timeline window history board) {closing remaining : List Window}
    (split : board.windows = closing ++ remaining) :
    Timeline window (history ++ board.moments (Board.closings closing))
      (board.takeAll (Board.closings closing)).1 ∧
    (board.takeAll (Board.closings closing)).1.windows = remaining := by
  induction closing generalizing history board with
  | nil => exact ⟨(List.append_nil history).symm ▸ timeline, split⟩
  | cons first rest inductionHypothesis =>
      obtain ⟨distinctFiles, inOrder⟩ := timeline.orderly
      rw [split, List.cons_append] at distinctFiles inOrder
      have isOpen : first ∈ board.windows := split ▸ List.mem_cons_self ..
      have follows : Moment.Follows ⟨first.closes, .timer first, board⟩ history := by
        refine ⟨fun past isPast => timeline.notOverdue past isPast first isOpen, ?_, ?_⟩
        · intro pending isPending
          rw [split] at isPending
          rcases List.mem_cons.mp isPending with rfl | isLater
          · exact Nat.le_refl _
          · exact (List.pairwise_cons.mp inOrder).1 pending isLater
        · rintro closing ⟨⟩
          exact ⟨isOpen, rfl⟩
      have cancelled : (board.cancel first.uri).windows = rest ++ remaining := by
        have notFirst := (List.nodup_cons.mp distinctFiles).1
        unfold Board.cancel
        dsimp only
        rw [split, List.cons_append, List.filter_cons_of_neg (by simp), List.filter_eq_self]
        intro other isOther
        apply decide_eq_true
        intro sameFile
        exact notFirst (List.mem_map.mpr ⟨other, isOther, sameFile⟩)
      have finished := inductionHypothesis (timeline.next follows) cancelled
      rw [List.append_assoc] at finished
      exact finished

end Timeline

namespace Service

/-- The history leads to the service as it is now. Nothing is due, and nothing waits once it has
ended. -/
structure OnTime (window : Nat) (history : List Moment) (service : Service) : Prop where
  timeline : Timeline window history service.board
  past : ∀ moment ∈ history, moment.time ≤ service.now
  noneDue : ∀ pending ∈ service.board.windows, service.now < pending.closes
  ended : (∀ holders, service.state ≠ .running holders) → service.board.windows = []

theorem past_append {now : Nat} {history : List Moment}
    (past : ∀ moment ∈ history, moment.time ≤ now) (board : Board) (moves : List (Nat × Cause))
    (notLater : ∀ move ∈ moves, move.1 ≤ now) :
    ∀ moment ∈ history ++ board.moments moves, moment.time ≤ now := by
  refine List.forall_mem_append.mpr ⟨past, fun moment isNew => ?_⟩
  have isTime : moment.time ∈ (board.moments moves).map (·.time) := List.mem_map_of_mem isNew
  rw [Board.map_time_moments] at isTime
  obtain ⟨move, isMove, atTime⟩ := List.mem_map.mp isTime
  exact atTime ▸ notLater move isMove

theorem OnTime.settled {window now holders : Nat} {history : List Moment} {board : Board}
    (timeline : Timeline window history board) (past : ∀ moment ∈ history, moment.time ≤ now) :
    OnTime window (history ++ board.moments (Board.closings (board.due now)))
      ⟨(board.closeDue now).1, now, .running holders⟩ := by
  obtain ⟨closed, remaining⟩ :=
    timeline.closings (timeline.orderly.windows_eq_due_append now)
  rw [Board.takeAll_closings] at closed remaining
  refine ⟨closed, past_append past board _ ?_, ?_, fun ended => absurd rfl (ended holders)⟩
  · intro move isMove
    obtain ⟨closing, isDue, rfl⟩ := List.mem_map.mp isMove
    exact of_decide_eq_true (List.mem_filter.mp isDue).2
  · intro pending isOpen
    have isRemaining : pending ∈ board.windows.filter fun window => now < window.closes :=
      remaining ▸ isOpen
    exact of_decide_eq_true (List.mem_filter.mp isRemaining).2

theorem OnTime.farewell {window now : Nat} {history : List Moment} {board : Board}
    {state : ServiceState} (onTime : OnTime window history ⟨board, now, state⟩) :
    OnTime window (history ++ [⟨now, .farewell, board⟩]) ⟨(board.drain now).1, now, .stopped⟩ := by
  have follows : Moment.Follows ⟨now, .farewell, board⟩ history :=
    ⟨onTime.past, fun pending isOpen => Nat.le_of_lt (onTime.noneDue pending isOpen), nofun⟩
  have nothingWaits : (board.drain now).1.windows = [] := Moment.windows_after_farewell now board
  have past := past_append onTime.past board [(now, .farewell)] (by simp)
  refine ⟨onTime.timeline.next follows, past, ?_, fun _ => nothingWaits⟩
  rw [nothingWaits]
  exact nofun

/-- A service that does not move its board stays on time, also while time passes after its end. -/
theorem OnTime.idle {window now later : Nat} {history : List Moment} {board : Board}
    {state : ServiceState} (onTime : OnTime window history ⟨board, now, state⟩)
    (nothingWaits : board.windows = []) (notEarlier : now ≤ later) :
    OnTime window (history ++ []) ⟨board, later, state⟩ := by
  rw [List.append_nil]
  refine ⟨onTime.timeline, ?_, ?_, fun _ => nothingWaits⟩
  · exact fun moment isPast => Nat.le_trans (onTime.past moment isPast) notEarlier
  · rw [nothingWaits]
    exact nofun

theorem OnTime.heldBy {window now holders : Nat} {history : List Moment} {board : Board}
    (onTime : OnTime window history ⟨board, now, .running holders⟩) (others : Nat) :
    OnTime window (history ++ []) ⟨board, now, .running others⟩ := by
  rw [List.append_nil]
  exact ⟨onTime.timeline, onTime.past, onTime.noneDue,
    fun notRunning => absurd rfl (notRunning others)⟩

theorem OnTime.act {window : Nat} {history : List Moment} {service : Service}
    (onTime : service.OnTime window history) (action : Action) :
    OnTime window (history ++ service.board.moments (service.moves action))
      (service.act action).1 := by
  obtain ⟨board, now, state⟩ := service
  cases state with
  | running holders =>
      cases action with
      | send commands =>
          have sent := onTime.timeline.sendings onTime.past
            (fun pending isOpen => Nat.le_of_lt (onTime.noneDue pending isOpen)) commands
          have sentPast := past_append onTime.past board (Board.sendings now commands)
            (by simp [Board.sendings])
          show OnTime window (history ++ board.moments (Board.sendings now commands ++ _))
            ⟨((board.handleAll now commands).1.closeDue now).1, now, .running holders⟩
          rw [Board.moments_append, ← List.append_assoc, ← Board.takeAll_sendings]
          exact .settled sent sentPast
      | sleep duration =>
          apply OnTime.settled onTime.timeline
          exact fun moment isPast => Nat.le_add_right_of_le (onTime.past moment isPast)
      | retain => exact onTime.heldBy (holders + 1)
      | release =>
          match holders with
          | 0 | 1 => exact onTime.farewell
          | others + 2 => exact onTime.heldBy (others + 1)
  | stopped | aborted =>
      have nothingWaits : board.windows = [] := onTime.ended nofun
      cases action with
      | send _ | retain | release => exact onTime.idle nothingWaits (Nat.le_refl now)
      | sleep duration => exact onTime.idle nothingWaits (Nat.le_add_right now duration)

theorem OnTime.run {window : Nat} {history : List Moment} {service : Service}
    (onTime : service.OnTime window history) (actions : List Action) :
    OnTime window (history ++ service.history actions) (service.run actions).1 := by
  induction actions generalizing history service with
  | nil => exact (List.append_nil history).symm ▸ onTime
  | cons action rest inductionHypothesis =>
      have finished := inductionHypothesis (onTime.act action)
      rw [List.append_assoc] at finished
      exact finished

theorem start_onTime (window : Nat) : (start window).OnTime window [] :=
  ⟨.start, nofun, nofun, fun _ => rfl⟩

theorem run_stopped {service : Service} (isStopped : service.state = .stopped)
    (actions : List Action) : (service.run actions).2 = [] := by
  induction actions generalizing service with
  | nil => rfl
  | cons action rest inductionHypothesis =>
      obtain ⟨board, now, state⟩ := service
      obtain rfl : state = .stopped := isStopped
      cases action with
      | send _ | sleep _ | retain | release => exact inductionHypothesis rfl

/-- The end publishes the files that wait, in the order of their bytes, and nothing after that. -/
theorem OnTime.release_last {window : Nat} {history : List Moment} {service : Service}
    (onTime : service.OnTime window history) (heldOnce : service.state = .running 1) :
    (service.release.2.map (·.uri)).Pairwise (fun earlier later => earlier.bytes < later.bytes) ∧
    (∀ file, file ∈ service.release.2.map (·.uri) ↔ service.board.isOpen file = true) ∧
    (∀ publish ∈ service.release.2,
      publish = ⟨service.now, publish.uri, service.board.store.get publish.uri⟩) ∧
    ∀ more, (service.release.1.run more).2 = [] := by
  obtain ⟨board, now, state⟩ := service
  obtain rfl : state = .running 1 := heldOnce
  have published : (release ⟨board, now, .running 1⟩).2 =
      (stableSort (fun left right => left ≤ right) (board.windows.map (·.uri))).map
        (board.publish now) := Moment.published_farewell now board
  have files : (release ⟨board, now, .running 1⟩).2.map (·.uri) =
      stableSort (fun left right => left ≤ right) (board.windows.map (·.uri)) := by
    rw [published, List.map_map]
    exact List.map_id _
  rw [files, published]
  refine ⟨Uri.stableSort_byteSorted onTime.timeline.orderly.distinctFiles,
    board.mem_drained_iff, ?_, run_stopped rfl⟩
  intro publish isPublished
  obtain ⟨file, _, rfl⟩ := List.mem_map.mp isPublished
  rfl

/-- A change that is older than a window has been published, at the latest when it reached that
age. -/
theorem OnTime.answered {window : Nat} {past later : List Moment} {change : Moment}
    {service : Service} (onTime : service.OnTime window (past ++ change :: later)) {uri : Uri}
    (changes : change.Changes uri) (isOld : change.time + window ≤ service.now) :
    ∃ answer ∈ change :: later, answer.Publishes uri ∧ answer.time ≤ change.time + window := by
  rcases onTime.timeline.answered rfl changes with answered | ⟨pending, isOpen, _, closesInTime⟩
  · exact answered
  · have notDue := onTime.noneDue pending isOpen
    omega

/-- Along every run of a service, for every file: what is published is current; a window that
closes was opened one window's length before, by a command that changed the file, and the file was
not published in between; a change is published before it is older than a window, unless a deletion
comes first, which publishes too; a deletion publishes one empty list; and between two publications,
or with the second, a command changes or deletes the file. When the last producer lets go, the files
that wait are published, each once and in the order of their bytes, and nothing after that. -/
theorem coalescing_neither_starves_nor_repeats (window : Nat) (actions : List Action) (uri : Uri) :
    let reached := ((start window).run actions).1
    let history := (start window).history actions
    Timeline window history reached.board ∧
    ((start window).run actions).2 = history.flatMap (·.published) ∧
    (∀ earlier moment later, history = earlier ++ moment :: later →
      (∀ publish ∈ moment.published,
        publish = ⟨moment.time, publish.uri, moment.after.store.get publish.uri⟩) ∧
      (∀ closing, moment.cause = .timer closing → closing.uri = uri →
        moment.published = [⟨moment.time, uri, moment.before.store.get uri⟩] ∧
        OpenedIn window earlier uri moment.time) ∧
      (moment.Changes uri → moment.time + window ≤ reached.now →
        ∃ answer ∈ moment :: later,
          answer.Publishes uri ∧ answer.time ≤ moment.time + window) ∧
      (moment.cause = .command (.delete uri) → moment.published = [⟨moment.time, uri, []⟩]) ∧
      (moment.Publishes uri → ∀ between second rest, later = between ++ second :: rest →
        second.Publishes uri →
        second.cause = .command (.delete uri) ∨
          ∃ change ∈ between, (∃ command, change.cause = .command command) ∧
            change.Changes uri)) ∧
    (reached.state = .running 1 →
      (reached.release.2.map (·.uri)).Pairwise
        (fun earlier later => earlier.bytes < later.bytes) ∧
      (∀ file, file ∈ reached.release.2.map (·.uri) ↔ reached.board.isOpen file = true) ∧
      (∀ publish ∈ reached.release.2,
        publish = ⟨reached.now, publish.uri, reached.board.store.get publish.uri⟩) ∧
      ∀ more, (reached.release.1.run more).2 = []) := by
  intro reached history
  have onTime : reached.OnTime window history := (start_onTime window).run actions
  refine ⟨onTime.timeline, published_run _ actions, ?_, onTime.release_last⟩
  intro earlier moment later split
  obtain ⟨untilThen, follows⟩ := onTime.timeline.atEach earlier moment later split
  obtain ⟨time, cause, board⟩ := moment
  refine ⟨fun _ => follows.eq_of_mem_published, ?_, (split ▸ onTime).answered, ?_, ?_⟩
  · rintro closing isTimer rfl
    obtain rfl : cause = .timer closing := isTimer
    obtain ⟨isOpen, atItsTime⟩ := follows.closesOpen closing rfl
    obtain rfl : closing.closes = time := atItsTime
    exact ⟨rfl, untilThen.opened closing isOpen⟩
  · intro isDeletion
    obtain rfl : cause = .command (.delete uri) := isDeletion
    rfl
  · rintro isPublished between second rest rfl publishedAgain
    exact onTime.timeline.separated split isPublished publishedAgain

/-- Two changes in a row, a deletion and another change. -/
def burst : List Action :=
  [.send [Feed.linterReports], .sleep 20, .send [Feed.compilerReports], .sleep 40,
    .send [.delete Feed.sharedFile], .send [Feed.linterReports]]

theorem burst_is_published_once :
    let history := (start 50).history burst
    let reached := ((start 50).run burst).1
    history.map (·.time) = [0, 20, 50, 60, 60] ∧
    (∃ earlier moment later, history = earlier ++ moment :: later ∧
      moment.published = [⟨50, Feed.sharedFile, [Feed.shadowing, Feed.unusedName]⟩] ∧
      OpenedIn 50 earlier Feed.sharedFile 50) ∧
    reached.release.2.map (·.uri) = [Feed.sharedFile] ∧
    ∀ more, (reached.release.1.run more).2 = [] := by
  intro history reached
  obtain ⟨_, _, atEach, atEnd⟩ :=
    coalescing_neither_starves_nor_repeats 50 burst Feed.sharedFile
  refine ⟨rfl, ?_, rfl, (atEnd rfl).2.2.2⟩
  obtain ⟨_, byTimer, _⟩ := atEach [_, _] _ [_, _] rfl
  obtain ⟨published, opened⟩ := byTimer ⟨Feed.sharedFile, 50⟩ rfl rfl
  exact ⟨[_, _], _, [_, _], rfl, published, opened⟩

end Service

end ElmDiagnostics
