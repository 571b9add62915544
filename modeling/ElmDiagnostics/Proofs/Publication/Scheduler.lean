import ElmDiagnostics.Proofs.Publication.ClientView
import ElmDiagnostics.Publication.Scheduler
import Mathlib.Data.List.Nodup
import Mathlib.Data.List.Perm.Basic

/-!
Contract: timers close the windows that they were started for, and no others.

Owns: when the windows of a scheduler are those of a board, which every request, cancellation and
message keeps; that a message whose window is gone publishes nothing and never will; that no open
window is left without a timer or a message; and that a board with timers publishes what a feed
does, whenever timers elapse and messages are received.

Does not own: what a feed publishes.
-/

set_option autoImplicit false

namespace ElmDiagnostics

namespace Scheduler

/-! ### The windows of a board, kept by timers -/

/-- The message is that of an open window. -/
def IsCurrent (scheduler : Scheduler) (flush : Flush) : Prop :=
  scheduler.pending.get? flush.uri = some flush.generation

theorem IsCurrent.eq {scheduler : Scheduler} {first second : Flush}
    (firstCurrent : scheduler.IsCurrent first) (secondCurrent : scheduler.IsCurrent second)
    (sameFile : first.uri = second.uri) : first = second := by
  obtain ⟨uri, generation⟩ := first
  obtain rfl : uri = second.uri := sameFile
  obtain rfl : generation = second.generation :=
    Option.some.inj (firstCurrent.symm.trans secondCurrent)
  rfl

/-- The messages of timers that run, and those that were sent. -/
def expected (scheduler : Scheduler) : List Flush :=
  scheduler.timers.map (·.flush) ++ scheduler.flushes

/-- The scheduler keeps the windows of the board. Every open window has a generation of its own and
will get its message. Timers run for open windows only, and elapse when these close. -/
structure Keeps (scheduler : Scheduler) (board : Board) : Prop where
  window : board.window = scheduler.window
  isOpen : ∀ uri, board.isOpen uri = true ↔
    ∃ generation, scheduler.pending.get? uri = some generation
  ownGeneration : ∀ uri other generation, scheduler.pending.get? uri = some generation →
    scheduler.pending.get? other = some generation → uri = other
  givenOut : ∀ flush, scheduler.IsCurrent flush ∨ flush ∈ scheduler.flushes →
    flush.generation ≤ scheduler.generation
  running : ∀ timer ∈ scheduler.timers, scheduler.IsCurrent timer.flush ∧
    ⟨timer.flush.uri, timer.elapses⟩ ∈ board.windows
  covered : ∀ flush, scheduler.IsCurrent flush → flush ∈ scheduler.expected
  distinct : scheduler.expected.Nodup

theorem new_keeps (window : Nat) : (new window).Keeps (.new window) where
  window := rfl
  isOpen uri := by simp [new, Board.new, Board.isOpen]
  ownGeneration uri other generation found := absurd found (by simp [new])
  givenOut flush known := absurd known (by simp [new, IsCurrent])
  running timer runs := absurd runs List.not_mem_nil
  covered flush current := absurd current (by simp [new, IsCurrent])
  distinct := .nil

theorem Keeps.withStore {scheduler : Scheduler} {board : Board} (keeps : scheduler.Keeps board)
    (store : Store) : scheduler.Keeps { board with store } :=
  { keeps with }

theorem Keeps.generation_le {scheduler : Scheduler} {board : Board} (keeps : scheduler.Keeps board)
    {flush : Flush} (isExpected : flush ∈ scheduler.expected) :
    flush.generation ≤ scheduler.generation := by
  rcases List.mem_append.mp isExpected with ofTimer | wasSent
  · obtain ⟨timer, runs, rfl⟩ := List.mem_map.mp ofTimer
    exact keeps.givenOut timer.flush (.inl (keeps.running timer runs).1)
  · exact keeps.givenOut flush (.inr wasSent)

variable {scheduler : Scheduler} {board : Board}

/-! ### Opening -/

theorem Keeps.isOpen_eq_contains (keeps : scheduler.Keeps board) (uri : Uri) :
    board.isOpen uri = scheduler.pending.contains uri := by
  rw [Bool.eq_iff_iff, keeps.isOpen, Table.contains, Option.isSome_iff_exists]

section Request

variable {uri : Uri} (absent : scheduler.pending.contains uri = false)
include absent

theorem request_of_absent (now : Nat) :
    scheduler.request now uri =
      { scheduler with
        generation := scheduler.generation + 1
        pending := scheduler.pending.insert uri (scheduler.generation + 1)
        timers := scheduler.timers ++
          [⟨⟨uri, scheduler.generation + 1⟩, now + scheduler.window⟩] } := by
  rw [request, absent, if_neg Bool.false_ne_true]

theorem isCurrent_request_iff (now : Nat) (flush : Flush) :
    (scheduler.request now uri).IsCurrent flush ↔
      if flush.uri = uri then flush.generation = scheduler.generation + 1
      else scheduler.IsCurrent flush := by
  rw [request_of_absent absent, IsCurrent, Table.get?_insert]
  split
  · rw [Option.some.injEq, eq_comm]
  · rfl

theorem expected_request (now : Nat) :
    (scheduler.request now uri).expected.Perm
      (⟨uri, scheduler.generation + 1⟩ :: scheduler.expected) := by
  rw [request_of_absent absent, expected, List.map_append, List.append_assoc]
  exact List.perm_middle

/-- The generation of the window that opens is new, so it is that of no other window. -/
theorem Keeps.uri_eq_request (keeps : scheduler.Keeps board) {now : Nat} (first second : Flush)
    (firstCurrent : (scheduler.request now uri).IsCurrent first)
    (secondCurrent : (scheduler.request now uri).IsCurrent second)
    (sameGeneration : first.generation = second.generation) : first.uri = second.uri := by
  rw [isCurrent_request_iff absent] at firstCurrent secondCurrent
  split at firstCurrent <;> split at secondCurrent
  next isFirst isSecond => rw [isFirst, isSecond]
  next =>
    have known := keeps.givenOut second (.inl secondCurrent)
    omega
  next =>
    have known := keeps.givenOut first (.inl firstCurrent)
    omega
  next =>
    rw [IsCurrent, sameGeneration] at firstCurrent
    exact keeps.ownGeneration _ _ _ firstCurrent secondCurrent

theorem Keeps.running_request (keeps : scheduler.Keeps board) (now : Nat) {timer : Timer}
    (runs : timer ∈ (scheduler.request now uri).timers) :
    (scheduler.request now uri).IsCurrent timer.flush ∧
      ⟨timer.flush.uri, timer.elapses⟩ ∈ (board.request now uri).windows := by
  rw [isCurrent_request_iff absent, Board.mem_windows_request]
  rw [request_of_absent absent] at runs
  rcases List.mem_append.mp runs with ranBefore | isNew
  · obtain ⟨wasCurrent, isWindow⟩ := keeps.running timer ranBefore
    have isOther : timer.flush.uri ≠ uri := by
      rintro rfl
      have isPending : scheduler.pending.contains timer.flush.uri = true :=
        Option.isSome_iff_exists.mpr ⟨_, wasCurrent⟩
      exact Bool.false_ne_true (absent.symm.trans isPending)
    rw [if_neg isOther]
    exact ⟨wasCurrent, .inl isWindow⟩
  · obtain rfl := List.mem_singleton.mp isNew
    rw [if_pos rfl, keeps.window, keeps.isOpen_eq_contains]
    exact ⟨rfl, .inr ⟨absent, rfl⟩⟩

theorem Keeps.covered_request (keeps : scheduler.Keeps board) (now : Nat) {flush : Flush}
    (current : (scheduler.request now uri).IsCurrent flush) :
    flush ∈ (scheduler.request now uri).expected := by
  rw [isCurrent_request_iff absent] at current
  rw [(expected_request absent now).mem_iff]
  split at current
  next isUri =>
    obtain ⟨_, _⟩ := flush
    obtain rfl := isUri
    obtain rfl := current
    exact List.mem_cons_self ..
  next => exact List.mem_cons_of_mem _ (keeps.covered flush current)

theorem Keeps.givenOut_request (keeps : scheduler.Keeps board) (now : Nat) {flush : Flush}
    (known : (scheduler.request now uri).IsCurrent flush ∨
      flush ∈ (scheduler.request now uri).flushes) :
    flush.generation ≤ (scheduler.request now uri).generation := by
  rw [isCurrent_request_iff absent, request_of_absent absent] at known
  rw [request_of_absent absent]
  rcases known with isCurrent | wasSent
  · split at isCurrent
    · exact Nat.le_of_eq isCurrent
    · exact Nat.le_succ_of_le (keeps.givenOut flush (.inl isCurrent))
  · exact Nat.le_succ_of_le (keeps.givenOut flush (.inr wasSent))

end Request

theorem Keeps.request (keeps : scheduler.Keeps board) (now : Nat) (uri : Uri) :
    (scheduler.request now uri).Keeps (board.request now uri) := by
  cases isPending : scheduler.pending.contains uri with
  | true =>
      have isOpen := (keeps.isOpen_eq_contains uri).trans isPending
      rw [Scheduler.request, if_pos isPending, Board.request, if_pos isOpen]
      exact keeps
  | false =>
      refine ⟨?_, ?_, ?_, fun _ => keeps.givenOut_request isPending now,
        fun _ => keeps.running_request isPending now,
        fun _ => keeps.covered_request isPending now, ?_⟩
      · rw [Board.window_request, keeps.window, request_of_absent isPending]
      · intro wanted
        rw [Board.isOpen_request, keeps.isOpen, request_of_absent isPending]
        simp only [Table.get?_insert]
        by_cases isUri : wanted = uri <;> simp [isUri]
      · intro first second generation foundFirst foundSecond
        exact keeps.uri_eq_request isPending ⟨first, generation⟩ ⟨second, generation⟩
          foundFirst foundSecond rfl
      · refine (expected_request isPending now).nodup_iff.mpr
          (List.nodup_cons.mpr ⟨?_, keeps.distinct⟩)
        intro isExpected
        exact absurd (keeps.generation_le isExpected) (Nat.not_succ_le_self _)

theorem Keeps.requestAll (keeps : scheduler.Keeps board) (now : Nat) (uris : List Uri) :
    (scheduler.requestAll now uris).Keeps (board.requestAll now uris) := by
  induction uris generalizing scheduler board with
  | nil => exact keeps
  | cons uri rest inductionHypothesis => exact inductionHypothesis (keeps.request now uri)

/-! ### Closing -/

/-- Closing a window keeps all others, when its timer is gone and other messages are not. -/
theorem Keeps.close (keeps : scheduler.Keeps board) (uri : Uri) {timers : List Timer}
    {flushes : List Flush} (fewerTimers : timers.Sublist scheduler.timers)
    (fewerFlushes : flushes.Sublist scheduler.flushes)
    (timerGone : ∀ timer ∈ timers, timer.flush.uri ≠ uri)
    (othersStay : ∀ flush ∈ scheduler.expected, scheduler.IsCurrent flush → flush.uri ≠ uri →
      flush ∈ timers.map (·.flush) ++ flushes) :
    Keeps { scheduler with pending := scheduler.pending.erase uri, timers, flushes }
      (board.cancel uri) := by
  have current (flush : Flush) :
      IsCurrent { scheduler with pending := scheduler.pending.erase uri, timers, flushes } flush ↔
        flush.uri ≠ uri ∧ scheduler.IsCurrent flush := by
    rw [IsCurrent, Table.get?_erase]
    split
    next isUri => simp [isUri]
    next isOther => exact (and_iff_right isOther).symm
  refine ⟨keeps.window, ?_, ?_, ?_, ?_, ?_, ?_⟩
  · intro wanted
    rw [Board.isOpen_cancel, keeps.isOpen]
    simp only [Table.get?_erase]
    by_cases isUri : wanted = uri <;> simp [isUri]
  · intro first second generation foundFirst foundSecond
    exact keeps.ownGeneration first second generation
      ((current ⟨first, generation⟩).mp foundFirst).2
      ((current ⟨second, generation⟩).mp foundSecond).2
  · intro flush known
    rw [current flush] at known
    rcases known with ⟨_, isCurrent⟩ | wasSent
    · exact keeps.givenOut flush (.inl isCurrent)
    · exact keeps.givenOut flush (.inr (fewerFlushes.subset wasSent))
  · intro timer runs
    obtain ⟨wasCurrent, isWindow⟩ := keeps.running timer (fewerTimers.subset runs)
    have isOther := timerGone timer runs
    exact ⟨(current timer.flush).mpr ⟨isOther, wasCurrent⟩,
      (Board.mem_windows_cancel board uri _).mpr ⟨isWindow, isOther⟩⟩
  · intro flush isCurrent
    obtain ⟨isOther, wasCurrent⟩ := (current flush).mp isCurrent
    exact othersStay flush (keeps.covered flush wasCurrent) wasCurrent isOther
  · exact keeps.distinct.sublist ((fewerTimers.map _).append fewerFlushes)

theorem Keeps.cancel (keeps : scheduler.Keeps board) (uri : Uri) :
    (scheduler.cancel uri).Keeps (board.cancel uri) := by
  unfold Scheduler.cancel
  split
  next generation found =>
    apply keeps.close uri (List.filter_sublist ..) (List.Sublist.refl _)
    · intro timer runs isUri
      obtain ⟨ran, otherGeneration⟩ := List.mem_filter.mp runs
      have itsGeneration := (keeps.running timer ran).1
      rw [IsCurrent, isUri, found] at itsGeneration
      simp [Option.some.inj itsGeneration] at otherGeneration
    · intro flush isExpected isCurrent isOther
      rcases List.mem_append.mp isExpected with ofTimer | wasSent
      · obtain ⟨timer, ran, rfl⟩ := List.mem_map.mp ofTimer
        have otherGeneration : timer.flush.generation ≠ generation := by
          rintro rfl
          exact isOther (keeps.ownGeneration _ _ _ isCurrent found)
        refine List.mem_append_left _ (List.mem_map_of_mem (List.mem_filter.mpr ⟨ran, ?_⟩))
        simpa using otherGeneration
      · exact List.mem_append_right _ wasSent
  next absent =>
    have notOpen : board.isOpen uri = false := by
      rw [keeps.isOpen_eq_contains, Table.contains, absent, Option.isSome_none]
    rw [Board.cancel_of_not_open notOpen]
    exact keeps

/-! ### Elapsing and receiving -/

/-- The message of the timer is expected as before, now as one that was sent. -/
theorem expected_elapse (scheduler : Scheduler) (timer : Timer) :
    (scheduler.elapse timer).expected.Perm scheduler.expected := by
  unfold Scheduler.elapse
  split
  next runs =>
    have moved : (scheduler.timers.map (·.flush)).Perm
        (timer.flush :: (scheduler.timers.erase timer).map (·.flush)) :=
      (List.perm_cons_erase runs).map _
    refine List.Perm.trans ?_ (moved.append_right scheduler.flushes).symm
    rw [expected, ← List.append_assoc]
    exact List.perm_append_singleton _ _
  next => exact .refl _

theorem Keeps.elapse (keeps : scheduler.Keeps board) (timer : Timer) :
    (scheduler.elapse timer).Keeps board := by
  have sameExpected := scheduler.expected_elapse timer
  unfold Scheduler.elapse at sameExpected ⊢
  split at sameExpected
  next runs =>
    rw [if_pos runs]
    refine ⟨keeps.window, keeps.isOpen, keeps.ownGeneration, ?_, ?_, ?_, ?_⟩
    · intro flush known
      rcases known with isCurrent | wasSent
      · exact keeps.givenOut flush (.inl isCurrent)
      · rcases List.mem_append.mp wasSent with sentBefore | isSent
        · exact keeps.givenOut flush (.inr sentBefore)
        · obtain rfl := List.mem_singleton.mp isSent
          exact keeps.givenOut timer.flush (.inl (keeps.running timer runs).1)
    · intro other stillRuns
      exact keeps.running other (List.mem_of_mem_erase stillRuns)
    · intro flush isCurrent
      exact sameExpected.mem_iff.mpr (keeps.covered flush isCurrent)
    · exact sameExpected.nodup_iff.mpr keeps.distinct
  next notRunning =>
    rw [if_neg notRunning]
    exact keeps

theorem takeDue_of_current {flush : Flush} (current : scheduler.IsCurrent flush) :
    scheduler.takeDue flush =
      ({ scheduler with pending := scheduler.pending.erase flush.uri }, true) := by
  rw [IsCurrent] at current
  simp only [takeDue, current, ↓reduceIte]

theorem takeDue_of_not_current {flush : Flush} (stale : ¬ scheduler.IsCurrent flush) :
    scheduler.takeDue flush = (scheduler, false) := by
  unfold takeDue
  split
  next generation found =>
    have otherGeneration : generation ≠ flush.generation := fun same =>
      stale (found.trans (congrArg some same))
    rw [if_neg otherGeneration]
  next => rfl

/-- A message that was sent is sent no more. -/
theorem Keeps.flush_ne_of_running (keeps : scheduler.Keeps board) {timer : Timer}
    (runs : timer ∈ scheduler.timers) {flush : Flush} (wasSent : flush ∈ scheduler.flushes) :
    timer.flush ≠ flush := by
  intro same
  have disjoint := (List.nodup_append'.mp keeps.distinct).2.2
  exact disjoint (List.mem_map_of_mem runs) (same ▸ wasSent)

theorem Keeps.receive_current (keeps : scheduler.Keeps board) {flush : Flush} {rest : List Flush}
    (isNext : scheduler.flushes = flush :: rest) (current : scheduler.IsCurrent flush) :
    Keeps { scheduler with pending := scheduler.pending.erase flush.uri, flushes := rest }
      (board.cancel flush.uri) := by
  apply keeps.close flush.uri (List.Sublist.refl _) (isNext ▸ List.sublist_cons_self flush rest)
  · intro timer runs isUri
    have same : timer.flush = flush := (keeps.running timer runs).1.eq current isUri
    exact keeps.flush_ne_of_running runs (isNext ▸ List.mem_cons_self ..) same
  · intro other isExpected _ isOther
    rw [expected, isNext] at isExpected
    have isNotNext : other ≠ flush := fun same => isOther (same ▸ rfl)
    simpa [isNotNext] using isExpected

theorem Keeps.receive_stale (keeps : scheduler.Keeps board) {flush : Flush} {rest : List Flush}
    (isNext : scheduler.flushes = flush :: rest) (stale : ¬ scheduler.IsCurrent flush) :
    Keeps { scheduler with flushes := rest } board := by
  have fewer : rest.Sublist scheduler.flushes := isNext ▸ List.sublist_cons_self flush rest
  refine ⟨keeps.window, keeps.isOpen, keeps.ownGeneration, ?_, keeps.running, ?_, ?_⟩
  · intro other known
    exact keeps.givenOut other (known.imp_right fun wasSent => fewer.subset wasSent)
  · intro other isCurrent
    have isExpected := keeps.covered other isCurrent
    rw [expected, isNext] at isExpected
    have isNotNext : other ≠ flush := fun same => stale (same ▸ isCurrent)
    simpa [expected, isNotNext] using isExpected
  · exact keeps.distinct.sublist ((List.Sublist.refl _).append fewer)

/-! ### The orderly end -/

theorem Keeps.mem_drained_iff (keeps : scheduler.Keeps board) (uri : Uri) :
    uri ∈ scheduler.drain.2 ↔ board.isOpen uri = true := by
  rw [drain, Table.mem_keys_iff, Option.isSome_iff_exists, keeps.isOpen]

/-- No timer outlives the orderly end. -/
theorem Keeps.timers_drain (keeps : scheduler.Keeps board) : scheduler.drain.1.timers = [] := by
  rw [drain, abort, List.filter_eq_nil_iff]
  intro timer runs
  have isValue : timer.flush.generation ∈ scheduler.pending.values :=
    List.mem_map.mpr ⟨_, (Table.mem_entries_iff _ _ _).mpr (keeps.running timer runs).1, rfl⟩
  simpa using isValue

/-! ### Stale messages -/

/-- The message of a window that was closed. -/
structure IsStale (scheduler : Scheduler) (flush : Flush) : Prop where
  givenOut : flush.generation ≤ scheduler.generation
  notCurrent : ¬ scheduler.IsCurrent flush

variable {flush : Flush}

/-- A window that opens has a new generation, so it is not that of an old message. -/
theorem IsStale.request (stale : scheduler.IsStale flush) (now : Nat) (uri : Uri) :
    (scheduler.request now uri).IsStale flush := by
  cases isPending : scheduler.pending.contains uri with
  | true =>
      rw [Scheduler.request, if_pos isPending]
      exact stale
  | false =>
      refine ⟨?_, ?_⟩
      · rw [request_of_absent isPending]
        exact Nat.le_succ_of_le stale.givenOut
      · rw [isCurrent_request_iff isPending]
        split
        · exact Nat.ne_of_lt (Nat.lt_succ_of_le stale.givenOut)
        · exact stale.notCurrent

theorem IsStale.requestAll (stale : scheduler.IsStale flush) (now : Nat) (uris : List Uri) :
    (scheduler.requestAll now uris).IsStale flush := by
  induction uris generalizing scheduler with
  | nil => exact stale
  | cons uri rest inductionHypothesis => exact inductionHypothesis (stale.request now uri)

theorem IsStale.of_erase (stale : scheduler.IsStale flush) (uri : Uri) (timers : List Timer)
    (flushes : List Flush) :
    IsStale { scheduler with pending := scheduler.pending.erase uri, timers, flushes } flush := by
  refine ⟨stale.givenOut, fun current => stale.notCurrent ?_⟩
  rw [IsCurrent, Table.get?_erase] at current
  split at current
  next => exact absurd current.symm (Option.some_ne_none _)
  next => exact current

theorem IsStale.cancel (stale : scheduler.IsStale flush) (uri : Uri) :
    (scheduler.cancel uri).IsStale flush := by
  unfold Scheduler.cancel
  split
  next => exact stale.of_erase uri _ _
  next => exact stale

theorem IsStale.elapse (stale : scheduler.IsStale flush) (timer : Timer) :
    (scheduler.elapse timer).IsStale flush := by
  unfold Scheduler.elapse
  split
  next => exact ⟨stale.givenOut, stale.notCurrent⟩
  next => exact stale

end Scheduler

namespace TimerBoard

/-- Every command but a deletion opens windows for the files it changes and publishes nothing. -/
theorem handle_eq_requestAll (board : TimerBoard) (now : Nat) (command : Command)
    (notDelete : ∀ uri, command ≠ .delete uri) :
    board.handle now command =
      (⟨(Board.applied board.store command).1,
        board.scheduler.requestAll now (Board.applied board.store command).2⟩, []) := by
  cases command with
  | update uri kind diagnostics =>
      cases changed : (board.store.replaceSlot uri kind diagnostics).2 with
      | true =>
          simp [handle, Board.applied, Store.update, Store.changes, changed, Scheduler.requestAll]
      | false =>
          simp [handle, Board.applied, Store.update, Store.changes, changed, Scheduler.requestAll]
  | replace kind results => rfl
  | clearKind kind => rfl
  | delete uri => exact absurd rfl (notDelete uri)

theorem receive_of_current {board : TimerBoard} {flush : Flush} {rest : List Flush}
    (isNext : board.scheduler.flushes = flush :: rest)
    (current : board.scheduler.IsCurrent flush) (now : Nat) :
    board.receive now =
      ({ board with scheduler :=
          { board.scheduler with
            pending := board.scheduler.pending.erase flush.uri
            flushes := rest } },
        [board.publish now flush.uri]) := by
  have due := Scheduler.takeDue_of_current
    (show Scheduler.IsCurrent { board.scheduler with flushes := rest } flush from current)
  simp only [receive, isNext, due, ↓reduceIte]

/-- A message whose window is gone publishes nothing and closes nothing. -/
theorem receive_of_not_current {board : TimerBoard} {flush : Flush} {rest : List Flush}
    (isNext : board.scheduler.flushes = flush :: rest)
    (stale : ¬ board.scheduler.IsCurrent flush) (now : Nat) :
    board.receive now =
      ({ board with scheduler := { board.scheduler with flushes := rest } }, []) := by
  have notDue := Scheduler.takeDue_of_not_current
    (show ¬ Scheduler.IsCurrent { board.scheduler with flushes := rest } flush from stale)
  simp only [receive, isNext, notDue, Bool.false_eq_true, ↓reduceIte]

end TimerBoard

/-! ### Runs -/

/-- A board with timers and the client it publishes to. -/
structure TimerFeed where
  board : TimerBoard
  view : ClientView

namespace TimerFeed

/-- What can happen to a board with timers. -/
inductive Event where
  /-- A command arrives. -/
  | command (now : Nat) (command : Command)
  /-- A producer reads the diagnostics of a file. -/
  | read (uri : Uri)
  /-- A timer elapses and sends its message. -/
  | elapse (timer : Timer)
  /-- The next message is received. -/
  | receive (now : Nat)

def start (window : Nat) : TimerFeed := ⟨.new window, fun _ => []⟩

def deliver (feed : TimerFeed) (result : TimerBoard × List Publish) : TimerFeed :=
  ⟨result.1, feed.view.receiveAll result.2⟩

def step (feed : TimerFeed) : Event → TimerFeed
  | .command now command => feed.deliver (feed.board.handle now command)
  | .read _ => feed
  | .elapse timer =>
      { feed with
        board := { feed.board with scheduler := feed.board.scheduler.elapse timer } }
  | .receive now => feed.deliver (feed.board.receive now)

def run (feed : TimerFeed) (events : List Event) : TimerFeed := events.foldl step feed

def drain (feed : TimerFeed) (now : Nat) : TimerFeed := feed.deliver (feed.board.drain now)

/-- What an event is to a feed without timers: a window closes when its own message is received,
and at no other event. -/
def moves (feed : TimerFeed) : Event → List Feed.Event
  | .command now command => [.command now command]
  | .read uri => [.read uri]
  | .elapse _ => []
  | .receive _ =>
      match feed.board.scheduler.flushes with
      | [] => []
      | flush :: _ =>
          if feed.board.scheduler.pending.get? flush.uri = some flush.generation then
            [.elapse flush.uri]
          else []

def allMoves (feed : TimerFeed) : List Event → List Feed.Event
  | [] => []
  | event :: rest => feed.moves event ++ (feed.step event).allMoves rest

/-- The same store and the same view, with the windows kept by timers. -/
structure Refines (timed : TimerFeed) (feed : Feed) : Prop where
  store : timed.board.store = feed.board.store
  view : timed.view = feed.view
  keeps : timed.board.scheduler.Keeps feed.board

theorem start_refines (window : Nat) : (start window).Refines (.start window) :=
  ⟨rfl, rfl, Scheduler.new_keeps window⟩

variable {timed : TimerFeed} {feed : Feed}

theorem Refines.command (refines : timed.Refines feed) (now : Nat) (command : Command) :
    (timed.step (.command now command)).Refines (feed.step (.command now command)) := by
  by_cases isDelete : ∃ uri, command = .delete uri
  · obtain ⟨uri, rfl⟩ := isDelete
    refine ⟨?_, ?_, ?_⟩
    · exact congrArg (·.delete uri) refines.store
    · exact congrArg (ClientView.receive · ⟨now, uri, []⟩) refines.view
    · exact (refines.keeps.withStore _).cancel uri
  · have notDelete := not_exists.mp isDelete
    simp only [step, Feed.step, deliver, Feed.deliver,
      TimerBoard.handle_eq_requestAll _ _ _ notDelete, Board.handle_eq_requestAll _ _ _ notDelete,
      refines.store]
    refine ⟨?_, refines.view, (refines.keeps.withStore _).requestAll now _⟩
    change _ = (Board.requestAll _ _ _).store
    rw [Board.store_requestAll]

/-- The board finds the window of a current message and publishes the same list for it. -/
theorem Refines.receive_current (refines : timed.Refines feed) {flush : Flush} {rest : List Flush}
    (isNext : timed.board.scheduler.flushes = flush :: rest)
    (current : timed.board.scheduler.IsCurrent flush) (now : Nat) :
    (timed.step (.receive now)).Refines (feed.step (.elapse flush.uri)) := by
  have isOpen := (refines.keeps.isOpen flush.uri).mpr ⟨_, current⟩
  have isFound : (feed.board.windows.find? fun window => window.uri = flush.uri).isSome := by
    rw [List.find?_isSome]
    simpa [Board.isOpen] using isOpen
  obtain ⟨window, found⟩ := Option.isSome_iff_exists.mp isFound
  have itsFile : window.uri = flush.uri := by simpa using List.find?_some found
  simp only [step, Feed.step, found, TimerBoard.receive_of_current isNext current, deliver,
    Feed.deliver, Board.close, itsFile]
  refine ⟨refines.store, ?_, refines.keeps.receive_current isNext current⟩
  funext uri
  simp only [ClientView.receiveAll, List.foldl_cons, List.foldl_nil, ClientView.receive,
    TimerBoard.publish, Board.publish, refines.store, refines.view]

theorem Refines.step (refines : timed.Refines feed) (event : Event) :
    (timed.step event).Refines (feed.run (timed.moves event)) := by
  cases event with
  | command now command => exact refines.command now command
  | read uri => exact refines
  | elapse timer => exact ⟨refines.store, refines.view, refines.keeps.elapse timer⟩
  | receive now =>
      cases isNext : timed.board.scheduler.flushes with
      | nil =>
          simp only [moves, TimerFeed.step, TimerBoard.receive, isNext]
          exact refines
      | cons flush rest =>
          by_cases current : timed.board.scheduler.IsCurrent flush
          · simp only [moves, isNext, if_pos (show _ = _ from current)]
            exact refines.receive_current isNext current now
          · simp only [moves, isNext, if_neg (show ¬ _ = _ from current), TimerFeed.step,
              TimerBoard.receive_of_not_current isNext current]
            exact ⟨refines.store, refines.view, refines.keeps.receive_stale isNext current⟩

theorem Refines.run (refines : timed.Refines feed) (events : List Event) :
    (timed.run events).Refines (feed.run (timed.allMoves events)) := by
  induction events generalizing timed feed with
  | nil => exact refines
  | cons event rest inductionHypothesis =>
      have later := inductionHypothesis (refines.step event)
      rw [Feed.run, Feed.run, ← List.foldl_append] at later
      exact later

theorem run_refines (window : Nat) (events : List Event) :
    ((start window).run events).Refines
      ((Feed.start window).run ((start window).allMoves events)) :=
  (start_refines window).run events

/-! ### Messages of windows that are gone -/

theorem stale_step {flush : Flush} (stale : timed.board.scheduler.IsStale flush) (event : Event) :
    (timed.step event).board.scheduler.IsStale flush := by
  cases event with
  | command now command =>
      by_cases isDelete : ∃ uri, command = .delete uri
      · obtain ⟨uri, rfl⟩ := isDelete
        exact stale.cancel uri
      · simp only [TimerFeed.step, deliver,
          TimerBoard.handle_eq_requestAll _ _ _ (not_exists.mp isDelete)]
        exact stale.requestAll now _
  | read uri => exact stale
  | elapse timer => exact stale.elapse timer
  | receive now =>
      cases isNext : timed.board.scheduler.flushes with
      | nil =>
          simp only [TimerFeed.step, TimerBoard.receive, isNext]
          exact stale
      | cons next rest =>
          by_cases current : timed.board.scheduler.IsCurrent next
          · simp only [TimerFeed.step, TimerBoard.receive_of_current isNext current]
            exact stale.of_erase next.uri _ rest
          · simp only [TimerFeed.step, TimerBoard.receive_of_not_current isNext current]
            exact ⟨stale.givenOut, stale.notCurrent⟩

theorem stale_run {flush : Flush} (stale : timed.board.scheduler.IsStale flush)
    (events : List Event) : (timed.run events).board.scheduler.IsStale flush := by
  induction events generalizing timed with
  | nil => exact stale
  | cons event rest inductionHypothesis => exact inductionHypothesis (stale_step stale event)

/-- A message that was sent and whose window is gone stays so, whatever happens before it is
received, and also when its file has another window by then. Receiving it publishes nothing and
changes nothing, apart from taking it out. -/
theorem stale_message_publishes_nothing (window : Nat) (before between : List Event)
    (flush : Flush) (rest : List Flush) (now : Nat) :
    let sent := (start window).run before
    let reached := sent.run between
    flush ∈ sent.board.scheduler.flushes → ¬ sent.board.scheduler.IsCurrent flush →
    reached.board.scheduler.flushes = flush :: rest →
    reached.board.receive now =
      ({ reached.board with scheduler := { reached.board.scheduler with flushes := rest } },
        []) := by
  intro sent reached wasSent notCurrent isNext
  have keeps := (run_refines window before).keeps
  have stale : sent.board.scheduler.IsStale flush :=
    ⟨keeps.givenOut flush (.inr wasSent), notCurrent⟩
  exact TimerBoard.receive_of_not_current isNext (stale_run stale between).notCurrent now

-- The file is deleted and changes again while the message of its first window is under way. The
-- second window stays open when the message is received.
example (diagnostic : Diagnostic) :
    let uri : Uri := ⟨"file:///Main.elm"⟩
    let reached := (start 50).run
      [.command 0 (.update uri .lint [diagnostic]), .elapse ⟨⟨uri, 1⟩, 50⟩,
        .command 60 (.delete uri), .command 60 (.update uri .lint [diagnostic])]
    reached.board.scheduler.flushes = [⟨uri, 1⟩] ∧
      (reached.board.receive 60).2 = [] ∧
      (reached.board.receive 60).1.scheduler.pending.get? uri = some 2 :=
  ⟨rfl, rfl, rfl⟩

/-! ### What the client shows -/

/-- The orderly end shows the client the same, with timers or without. -/
theorem Refines.drain (refines : timed.Refines feed) (now : Nat) :
    (timed.drain now).view = (feed.drain now).view := by
  funext uri
  have files := refines.keeps.mem_drained_iff uri
  rw [TimerFeed.drain, deliver, TimerBoard.drain, Feed.drain, Feed.deliver, Board.published_drain]
  refine (ClientView.receiveAll_map timed.view _ now timed.board.store.get uri).trans ?_
  refine Eq.trans ?_ (ClientView.receiveAll_map feed.view _ now feed.board.store.get uri).symm
  simp only [files, Board.mem_drained_iff, refines.view, refines.store]

/-- In every run of commands, timers and messages, a file either waits for the message of its own
window, or is shown by the client as the store has it, up to reordering. So once no timer runs and
no message is under way all files are, and after the orderly end as well, which stops all timers. -/
theorem timed_client_shows_store (window : Nat) (events : List Event) (uri : Uri) :
    let reached := (start window).run events
    ((∃ generation, reached.board.scheduler.pending.get? uri = some generation ∧
        ⟨uri, generation⟩ ∈ reached.board.scheduler.expected) ∨
      Diagnostic.SameProblems (reached.view uri) (reached.board.store.get uri)) ∧
    (reached.board.scheduler.expected = [] →
      Diagnostic.SameProblems (reached.view uri) (reached.board.store.get uri)) ∧
    ∀ now, (reached.drain now).board.scheduler.timers = [] ∧
      Diagnostic.SameProblems ((reached.drain now).view uri) (reached.board.store.get uri) := by
  intro reached
  have refines := run_refines window events
  have agrees := Feed.run_agrees (Feed.start_agrees window) ((start window).allMoves events)
  have waitsOrShown : (∃ generation,
        reached.board.scheduler.pending.get? uri = some generation ∧
          ⟨uri, generation⟩ ∈ reached.board.scheduler.expected) ∨
      Diagnostic.SameProblems (reached.view uri) (reached.board.store.get uri) := by
    rw [refines.view, refines.store]
    refine (agrees uri).imp_left fun isOpen => ?_
    obtain ⟨generation, found⟩ := (refines.keeps.isOpen uri).mp isOpen
    exact ⟨generation, found, refines.keeps.covered ⟨uri, generation⟩ found⟩
  refine ⟨waitsOrShown, ?_, ?_⟩
  · intro nothingExpected
    rcases waitsOrShown with ⟨generation, _, isExpected⟩ | shown
    · rw [nothingExpected] at isExpected
      exact absurd isExpected List.not_mem_nil
    · exact shown
  · intro now
    refine ⟨refines.keeps.timers_drain, ?_⟩
    have shown := agrees.drain_shown now uri
    rw [Feed.drain, Feed.deliver, Board.drain, Board.store_closeAll, ← refines.store] at shown
    rw [refines.drain]
    exact shown

end TimerFeed

end ElmDiagnostics
