import ElmDiagnostics.Diagnostic.Store
import ElmDiagnostics.StableSort

/-!
Contract: when the diagnostics of a file are sent to the client.

Owns: commands of producers, the board that applies them, publishing windows, and what closing
a window publishes.

A change opens a window for its file unless one is open. When the window closes, the file's
diagnostics of that moment are published, so later changes ride along and none is lost. An
open window is never moved. Windows close in the order in which they were opened. Deleting a
file closes its window and publishes an empty list at once.
-/

set_option autoImplicit false

namespace ElmDiagnostics

/-- What producers ask for. -/
inductive Command where
  | update (uri : Uri) (kind : Kind) (diagnostics : List Diagnostic)
  | replace (kind : Kind) (results : ProjectResults)
  | clearKind (kind : Kind)
  | delete (uri : Uri)

/-- A list sent to the client. It takes the place of all the client shows for the file. -/
structure Publish where
  time : Nat
  uri : Uri
  diagnostics : List Diagnostic

/-- Order by time, then by file. -/
def Publish.le (left right : Publish) : Bool :=
  left.time < right.time || (left.time = right.time && decide (left.uri ≤ right.uri))

/-- The length of a window in milliseconds, unless told otherwise. -/
def defaultWindow : Nat := 50

/-- An open window: its file and the time it closes. -/
structure Window where
  uri : Uri
  closes : Nat
deriving DecidableEq, Repr

/-- All diagnostics, and the open windows in the order in which they were opened. -/
structure Board where
  window : Nat
  store : Store
  windows : List Window

namespace Board

/-- A board without diagnostics. -/
def new (window : Nat) : Board := ⟨window, .empty, []⟩

/-- Whether a file has an open window. -/
def isOpen (board : Board) (uri : Uri) : Bool := board.windows.any fun window => window.uri = uri

/-- Opens a window for a file unless one is open. -/
def request (board : Board) (now : Nat) (uri : Uri) : Board :=
  if board.isOpen uri then board
  else { board with windows := board.windows ++ [⟨uri, now + board.window⟩] }

/-- Takes the window of a file away. -/
def cancel (board : Board) (uri : Uri) : Board :=
  { board with windows := board.windows.filter fun window => window.uri ≠ uri }

/-- Opens windows for several files. -/
def requestAll (board : Board) (now : Nat) (uris : List Uri) : Board :=
  uris.foldl (fun board uri => board.request now uri) board

/-- The list that a file shows. -/
def publish (board : Board) (now : Nat) (uri : Uri) : Publish := ⟨now, uri, board.store.get uri⟩

/-- Applies a command at a time. -/
def handle (board : Board) (now : Nat) : Command → Board × List Publish
  | .update uri kind diagnostics =>
      let (store, changed) := board.store.replaceSlot uri kind diagnostics
      let updated := { board with store }
      (if changed then updated.request now uri else updated, [])
  | .replace kind results =>
      let (store, changed) := board.store.replace kind results
      ({ board with store }.requestAll now changed, [])
  | .clearKind kind =>
      let (store, changed) := board.store.clearKind kind
      ({ board with store }.requestAll now changed, [])
  | .delete uri =>
      let (store, _) := board.store.remove uri
      ({ board with store }.cancel uri, [⟨now, uri, []⟩])

/-- Applies commands one after the other. -/
def handleAll (board : Board) (now : Nat) : List Command → Board × List Publish
  | [] => (board, [])
  | command :: rest =>
      let (handled, published) := board.handle now command
      let (final, publishedLater) := handled.handleAll now rest
      (final, published ++ publishedLater)

/-- Closes a window at its time. -/
def close (board : Board) (window : Window) : Board × List Publish :=
  (board.cancel window.uri, [board.publish window.closes window.uri])

/-- Closes windows one after the other. -/
def closeAll (board : Board) : List Window → Board × List Publish
  | [] => (board, [])
  | window :: rest =>
      let (closed, published) := board.close window
      let (final, publishedLater) := closed.closeAll rest
      (final, published ++ publishedLater)

/-- The windows that have to be closed by a time. -/
def due (board : Board) (now : Nat) : List Window :=
  board.windows.filter fun window => window.closes ≤ now

/-- Closes the windows whose time has come. -/
def closeDue (board : Board) (now : Nat) : Board × List Publish := board.closeAll (board.due now)

/-- Closes all windows at once, in the order of files. -/
def drain (board : Board) (now : Nat) : Board × List Publish :=
  let files := stableSort (fun left right => left ≤ right) (board.windows.map (·.uri))
  board.closeAll (files.map fun uri => ⟨uri, now⟩)

end Board

end ElmDiagnostics
