import ElmDiagnostics.Publication.Board

/-!
Contract: publishing windows that are kept by timers.

Owns: one timer for each open window, the generations that tell a window from an earlier one of the
same file, and what becomes of the message that a timer sends when it elapses.

Does not own: clocks. When a timer elapses, and when its message is received, is decided elsewhere.

A message may still be under way when its file is deleted and changes again, so that another window
is open by the time it is received. It carries the generation of its own window and closes no other.
Aborting a timer that has elapsed already does not take its message back.
-/

set_option autoImplicit false

namespace ElmDiagnostics

/-- The message of a timer that has elapsed: the file and the generation of its window. -/
structure Flush where
  uri : Uri
  generation : Nat
deriving DecidableEq, Repr

/-- A timer that runs: what it will send, and when. -/
structure Timer where
  flush : Flush
  elapses : Nat
deriving DecidableEq, Repr

/-- The open windows and their timers. -/
structure Scheduler where
  window : Nat
  /-- The generation of the open window of each file that has one. -/
  pending : Table Uri Nat
  /-- The last generation that was given out. -/
  generation : Nat
  timers : List Timer
  /-- What was sent and not received yet, in the order of sending. -/
  flushes : List Flush

namespace Scheduler

def new (window : Nat) : Scheduler := ⟨window, ∅, 0, [], []⟩

/-- Opens a window for a file and starts its timer, unless a window is open. -/
def request (scheduler : Scheduler) (now : Nat) (uri : Uri) : Scheduler :=
  if scheduler.pending.contains uri then scheduler
  else
    let generation := scheduler.generation + 1
    { scheduler with
      generation
      pending := scheduler.pending.insert uri generation
      timers := scheduler.timers ++ [⟨⟨uri, generation⟩, now + scheduler.window⟩] }

def requestAll (scheduler : Scheduler) (now : Nat) (uris : List Uri) : Scheduler :=
  uris.foldl (fun scheduler uri => scheduler.request now uri) scheduler

/-- Stops the timers of these generations, as far as they still run. -/
def abort (scheduler : Scheduler) (generations : List Nat) : Scheduler :=
  { scheduler with
    timers := scheduler.timers.filter fun timer => timer.flush.generation ∉ generations }

/-- Closes the window of a file, if it has one, and stops its timer. -/
def cancel (scheduler : Scheduler) (uri : Uri) : Scheduler :=
  match scheduler.pending.get? uri with
  | some generation =>
      { scheduler with pending := scheduler.pending.erase uri }.abort [generation]
  | none => scheduler

/-- A timer elapses, if it runs, and sends its message. -/
def elapse (scheduler : Scheduler) (timer : Timer) : Scheduler :=
  if timer ∈ scheduler.timers then
    { scheduler with
      timers := scheduler.timers.erase timer
      flushes := scheduler.flushes ++ [timer.flush] }
  else scheduler

/-- Whether the message is that of an open window. If so, the window is closed. -/
def takeDue (scheduler : Scheduler) (flush : Flush) : Scheduler × Bool :=
  match scheduler.pending.get? flush.uri with
  | some generation =>
      if generation = flush.generation then
        ({ scheduler with pending := scheduler.pending.erase flush.uri }, true)
      else (scheduler, false)
  | none => (scheduler, false)

/-- Closes all windows, stops their timers, and lists the files, in order. -/
def drain (scheduler : Scheduler) : Scheduler × List Uri :=
  ({ scheduler with pending := ∅ }.abort scheduler.pending.values, scheduler.pending.keys)

end Scheduler

/-- All diagnostics, with windows that are kept by timers. -/
structure TimerBoard where
  store : Store
  scheduler : Scheduler

namespace TimerBoard

def new (window : Nat) : TimerBoard := ⟨.empty, .new window⟩

/-- The list that a file shows. -/
def publish (board : TimerBoard) (now : Nat) (uri : Uri) : Publish :=
  ⟨now, uri, board.store.get uri⟩

/-- Applies a command at a time. -/
def handle (board : TimerBoard) (now : Nat) : Command → TimerBoard × List Publish
  | .update uri kind diagnostics =>
      let (store, changed) := board.store.replaceSlot uri kind diagnostics
      (⟨store, if changed then board.scheduler.request now uri else board.scheduler⟩, [])
  | .replace kind results =>
      let (store, changed) := board.store.replace kind results
      (⟨store, board.scheduler.requestAll now changed⟩, [])
  | .clearKind kind =>
      let (store, changed) := board.store.clearKind kind
      (⟨store, board.scheduler.requestAll now changed⟩, [])
  | .delete uri =>
      let (store, _) := board.store.remove uri
      (⟨store, board.scheduler.cancel uri⟩, [⟨now, uri, []⟩])

/-- Receives the next message. It publishes its file if it is that of an open window. -/
def receive (board : TimerBoard) (now : Nat) : TimerBoard × List Publish :=
  match board.scheduler.flushes with
  | [] => (board, [])
  | flush :: rest =>
      let (scheduler, isDue) := { board.scheduler with flushes := rest }.takeDue flush
      ({ board with scheduler }, if isDue then [board.publish now flush.uri] else [])

/-- The orderly end: publishes the files that wait for their windows. -/
def drain (board : TimerBoard) (now : Nat) : TimerBoard × List Publish :=
  let (scheduler, uris) := board.scheduler.drain
  ({ board with scheduler }, uris.map (board.publish now))

end TimerBoard

end ElmDiagnostics
