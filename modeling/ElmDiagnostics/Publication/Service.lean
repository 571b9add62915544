import ElmDiagnostics.Publication.Board

/-!
Contract: the lifetime of a board that producers share.

Owns: a board on a clock, the producers that hold it, its orderly end and its abrupt one.

When the last producer lets go, everything that waits for its window is published and the
service stops. A service that is aborted publishes nothing more.
-/

set_option autoImplicit false

namespace ElmDiagnostics

/-- Whether a service still works. -/
inductive ServiceState where
  /-- The number of producers that hold the service. -/
  | running (holders : Nat)
  | stopped
  | aborted
deriving DecidableEq, Repr

/-- A board on a clock of milliseconds. -/
structure Service where
  board : Board
  now : Nat
  state : ServiceState

namespace Service

/-- A new service with one holder. -/
def start (window : Nat) : Service := ⟨.new window, 0, .running 1⟩

/-- Closes what is due at the present time. -/
def settle (service : Service) : Service × List Publish :=
  let (board, published) := service.board.closeDue service.now
  ({ service with board }, published)

/-- Sends commands without a pause. -/
def send (service : Service) (commands : List Command) : Service × List Publish :=
  match service.state with
  | .running _ =>
      let (board, published) := service.board.handleAll service.now commands
      let (settled, publishedLater) := { service with board }.settle
      (settled, published ++ publishedLater)
  | _ => (service, [])

/-- The diagnostics of a file; none once the service has ended. -/
def get (service : Service) (uri : Uri) : List Diagnostic :=
  match service.state with
  | .running _ => service.board.store.get uri
  | _ => []

/-- Lets time pass. -/
def sleep (service : Service) (duration : Nat) : Service × List Publish :=
  let later := { service with now := service.now + duration }
  match service.state with
  | .running _ => later.settle
  | _ => (later, [])

/-- Lets one more producer hold the service. -/
def retain (service : Service) : Service :=
  match service.state with
  | .running holders => { service with state := .running (holders + 1) }
  | _ => service

/-- Lets one producer go. -/
def release (service : Service) : Service × List Publish :=
  match service.state with
  | .running (holders + 2) => ({ service with state := .running (holders + 1) }, [])
  | .running _ =>
      let (board, published) := service.board.drain service.now
      ({ service with board, state := .stopped }, published)
  | _ => (service, [])

/-- Ends the service at once. -/
def abort (service : Service) : Service :=
  match service.state with
  | .running _ => { service with state := .aborted }
  | _ => service

end Service

end ElmDiagnostics
