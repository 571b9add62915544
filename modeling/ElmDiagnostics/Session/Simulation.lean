import ElmDiagnostics.Session.Basic

/-!
Contract: a session on a clock, with analysers whose behaviour is given in advance.

Owns: the order of events in time: windows that close, project runs that finish, and the wait
for the type checker inside an event.

What an analyser answers and how long it takes is data, so a whole session is a function of its
events. The type checker is waited for. Project runs go on in the background. What arrives at the
same time arrives in this order: the answer that is waited for, then finished project runs in
the order they were started.
-/

set_option autoImplicit false

namespace ElmDiagnostics

/-- The behaviour of an analyser: the lists it answers, the kind it reports under, the
milliseconds it takes, and the reason it fails for, if it fails. -/
structure AnalyserScript where
  results : ProjectResults
  kind : Kind
  delay : Nat
  failure : Option String

namespace AnalyserScript

/-- The answer about a project. -/
def projectAnswer (script : AnalyserScript) : Except Failure ProjectResults :=
  match script.failure with
  | some reason => .error (.analyser script.kind reason)
  | none => .ok script.results

/-- The answer about a file. -/
def fileAnswer (script : AnalyserScript) (uri : Uri) : Except Failure (List Diagnostic) :=
  script.projectAnswer.map fun results => (results.get? uri).getD []

end AnalyserScript

/-- A project run under way. -/
structure ProjectRun where
  request : ProjectRequest
  kind : Kind
  finish : Nat
  answer : Except Failure ProjectResults

/-- A session at a time. The lists at the end grow as the session goes on. -/
structure Simulation where
  now : Nat
  session : Session
  board : Board
  typeChecker : Option AnalyserScript
  compiler : Option AnalyserScript
  externalLinter : Option AnalyserScript
  running : List ProjectRun
  /-- What was published. -/
  published : List Publish
  /-- What the type checker was asked. -/
  checks : List CheckRequest
  /-- What the analysers of projects were asked. -/
  runs : List ProjectRequest

namespace Simulation

/-- A session at time zero. -/
def start (session : Session) (typeChecker compiler externalLinter : Option AnalyserScript) :
    Simulation where
  now := 0
  session := session
  board := .new defaultWindow
  typeChecker := typeChecker
  compiler := compiler
  externalLinter := externalLinter
  running := []
  published := []
  checks := []
  runs := []

/-- Forgets what was recorded. -/
def clearRecord (sim : Simulation) : Simulation :=
  { sim with published := [], checks := [], runs := [] }

/-! ### Time -/

/-- Sends commands to the board. -/
def send (sim : Simulation) (commands : List Command) : Simulation :=
  let (board, published) := sim.board.handleAll sim.now commands
  { sim with board, published := sim.published ++ published }

/-- Moves the clock forward and closes the windows whose time has come. -/
def tick (sim : Simulation) (time : Nat) : Simulation :=
  let (board, published) := sim.board.closeDue time
  { sim with now := time, board, published := sim.published ++ published }

/-- Lets runs finish, each at its time. -/
def finishRuns (sim : Simulation) : List ProjectRun → Simulation
  | [] => sim
  | run :: rest =>
      ((sim.tick run.finish).send (run.request.answered run.kind run.answer)).finishRuns rest

/-- Lets the runs finish whose finishing time is due, the earliest first. -/
def finishDue (sim : Simulation) (isDue : Nat → Bool) : Simulation :=
  let due := sim.running.filter fun run => isDue run.finish
  let others := sim.running.filter fun run => !isDue run.finish
  { sim with running := others }.finishRuns
    (stableSort (fun left right => left.finish ≤ right.finish) due)

/-- Moves the clock to a time, up to the point where runs finish that end just then. -/
def waitUntil (sim : Simulation) (time : Nat) : Simulation :=
  (sim.finishDue fun finish => finish < time).tick time

/-- Does everything that is due at the present time. -/
def settle (sim : Simulation) : Simulation := sim.finishDue fun finish => finish ≤ sim.now

/-- Moves the clock to a time and does everything that is due by then. -/
def advanceTo (sim : Simulation) (time : Nat) : Simulation := (sim.waitUntil time).settle

/-- Lets time pass. -/
def sleep (sim : Simulation) (duration : Nat) : Simulation := sim.advanceTo (sim.now + duration)

/-! ### Analysers -/

/-- Asks the type checker and waits for its answer. Without one, a file has no type errors. The
caller settles what else is due when the answer comes. -/
def check (sim : Simulation) (request : CheckRequest) : Simulation :=
  match sim.typeChecker with
  | none => sim.send (request.answered (.ok []))
  | some script =>
      let asked := { sim with checks := sim.checks ++ [request] }
      (asked.waitUntil (sim.now + script.delay)).send
        (request.answered (script.fileAnswer request.uri))

/-- The script of an analyser of projects. -/
def scriptOf (sim : Simulation) : ProjectAnalyser → Option AnalyserScript
  | .compiler => sim.compiler
  | .externalLinter => sim.externalLinter

/-- Starts a project run, if there is such an analyser. -/
def startRun (sim : Simulation) (request : ProjectRequest) : Simulation :=
  match sim.scriptOf request.analyser with
  | none => sim
  | some script =>
      let run : ProjectRun := {
        request
        kind := script.kind
        finish := sim.now + script.delay
        answer := script.projectAnswer }
      { sim with running := sim.running ++ [run], runs := sim.runs ++ [request] }

/-! ### Events -/

/-- A file is opened or saved. -/
def opened (sim : Simulation) (uri : Uri) : Except Failure Simulation := do
  let (commands, request) ← sim.session.refresh uri
  let checked := (sim.send commands).check request
  let started := (sim.session.projectRequests uri request.folder).foldl startRun checked
  return started.settle

/-- A file is edited. -/
def changed (sim : Simulation) (uri : Uri) : Except Failure Simulation := do
  let (commands, request) ← sim.session.changed uri
  let sent := sim.send commands
  match request with
  | some request => return (sent.check request).settle
  | none => return sent.settle

/-- A file is deleted. -/
def deleted (sim : Simulation) (uri : Uri) : Simulation := (sim.send (Session.deleted uri)).settle

/-- Settings arrive. What was done before a failure stays done. -/
def configured (sim : Simulation) (value : Json) : Simulation × Option Failure :=
  let (session, effects) := sim.session.configure value
  (({ sim with session }.send effects.commands).settle, effects.failure?)

/-- Settings arrive, for a caller that goes on only if they are followed to the end. -/
def configure (sim : Simulation) (value : Json) : Except Failure Simulation :=
  match sim.configured value with
  | (reached, none) => .ok reached
  | (_, some failure) => .error failure

/-- A folder is added to the workspace. -/
def addFolder (sim : Simulation) (root : String) : Simulation :=
  { sim with
    session := { sim.session with workspaces := sim.session.workspaces.addFolder root } }

/-- The tree of a file is set. -/
def setTree (sim : Simulation) (uri : Uri) (tree : Module) : Except Failure Simulation := do
  let workspaces ← sim.session.workspaces.setTree uri tree
  return { sim with session := { sim.session with workspaces } }

/-- The tree of a file is forgotten. -/
def removeTree (sim : Simulation) (uri : Uri) : Simulation :=
  { sim with
    session := { sim.session with workspaces := sim.session.workspaces.removeTree uri } }

/-- The diagnostics of a file. -/
def get (sim : Simulation) (uri : Uri) : List Diagnostic := sim.board.store.get uri

end Simulation

end ElmDiagnostics
