import ElmDiagnostics.Publication.Board
import ElmDiagnostics.Rule.RuleSet
import ElmDiagnostics.Workspace.Workspaces

/-!
Contract: how a session reacts to events of the client.

Owns: what happens when a file is opened, saved, edited or deleted and when settings change: the
commands sent to the board, the questions put to analysers, and what their answers are turned
into.

Does not own: time, publishing, and the analysers themselves. Commands and questions are data,
so answers may come in any order.
-/

set_option autoImplicit false

namespace ElmDiagnostics

/-- The state of a session. -/
structure Session where
  workspaces : Workspaces
  settings : Settings
  rules : RuleSet

/-! ### Questions and answers -/

/-- A question to the type checker about one file. -/
structure CheckRequest where
  uri : Uri
  tree : Module
  folder : Folder

/-- The commands that follow from the type checker's answer. A failure changes nothing. -/
def CheckRequest.answered (request : CheckRequest) :
    Except Failure (List Diagnostic) → List Command
  | .ok diagnostics => [.update request.uri .typeInference diagnostics]
  | .error _ => []

/-- The analysers of whole projects. -/
inductive ProjectAnalyser where
  | compiler
  | externalLinter
deriving DecidableEq, Repr

/-- A question to an analyser about the folder of a file. -/
structure ProjectRequest where
  analyser : ProjectAnalyser
  trigger : Uri
  folder : Folder
  /-- The severity that all findings are given. -/
  severity : Option Severity

/-- Gives every finding of a run the same severity. -/
def ProjectResults.withSeverity (results : ProjectResults) (severity : Severity) : ProjectResults :=
  .ofList (results.entries.map fun entry =>
    (entry.1, entry.2.map fun diagnostic => { diagnostic with severity }))

/-- The commands that follow from a project run that reports under `kind`. Files that the run
does not mention are cleared. A failure changes nothing. -/
def ProjectRequest.answered (request : ProjectRequest) (kind : Kind) :
    Except Failure ProjectResults → List Command
  | .ok results =>
      match request.severity with
      | some severity => [.replace kind (results.withSeverity severity)]
      | none => [.replace kind results]
  | .error _ => []

/-! ### Effects -/

/-- What was done for an event: the commands that were sent, and the failure that cut it short, if
one did. What was sent before a failure is not taken back. -/
structure Effects where
  commands : List Command
  failure? : Option Failure

namespace Effects

def done (commands : List Command) : Effects := ⟨commands, none⟩

def failed (failure : Failure) : Effects := ⟨[], some failure⟩

def ofExcept : Except Failure (List Command) → Effects
  | .ok commands => done commands
  | .error failure => failed failure

/-- What comes next is done only if nothing has failed before. -/
def andThen (first next : Effects) : Effects :=
  match first.failure? with
  | none => ⟨first.commands ++ next.commands, next.failure?⟩
  | some _ => first

end Effects

namespace Session

/-- A session without folders and with default settings. -/
def new : Session := ⟨.empty, {}, .full⟩

/-- Puts settings into force. -/
def withSettings (session : Session) (settings : Settings) : Session :=
  { session with settings, rules := .without settings.disabledRules }

/-! ### Linting -/

/-- The folder and the tree of a file. -/
def resolve (session : Session) (uri : Uri) : Except Failure (Folder × Module) := do
  let folder ← session.workspaces.folderOf uri
  match folder.tree? uri with
  | some tree => return (folder, tree)
  | none => throw (.missingTree uri)

/-- Whether a file of a folder is excluded from linting. -/
def isExcluded (session : Session) (folder : Folder) (uri : Uri) : Bool :=
  match uri.filePath?.bind fun path => path.relativeTo? folder.path with
  | some relative => session.settings.isExcluded relative
  | none => false

/-- Runs the rules on a file; nothing happens when they are turned off. -/
def lint (session : Session) (uri : Uri) (folder : Folder) (tree : Module) :
    Except Failure (List Command) :=
  if session.settings.lintEnabled then
    if session.isExcluded folder uri then .ok [.update uri .lint []]
    else
      match session.rules.evaluate tree folder.interfaces with
      | .ok diagnostics => .ok [.update uri .lint diagnostics]
      | .error cause => .error (.coordinate cause)
  else .ok []

/-- Runs the rules on each of the files that has a folder and a tree. -/
def lintTracked (session : Session) : List Uri → Effects
  | [] => .done []
  | uri :: rest =>
      match session.resolve uri with
      | .ok (folder, tree) =>
          (Effects.ofExcept (session.lint uri folder tree)).andThen (session.lintTracked rest)
      | .error _ => session.lintTracked rest

/-! ### Events -/

/-- Looks at one file: runs the rules and asks the type checker. -/
def refresh (session : Session) (uri : Uri) : Except Failure (List Command × CheckRequest) := do
  let (folder, tree) ← session.resolve uri
  let commands ← session.lint uri folder tree
  return (commands, { uri, tree, folder })

/-- An edit: looks at the file unless that waits for saving. -/
def changed (session : Session) (uri : Uri) :
    Except Failure (List Command × Option CheckRequest) :=
  if session.settings.onlyOnSave then .ok ([], none)
  else do
    let (commands, request) ← session.refresh uri
    return (commands, some request)

/-- The project runs that opening or saving a file asks for, once the file itself has been
looked at: the compiler, and the external linter when settings turn it on. -/
def projectRequests (session : Session) (trigger : Uri) (folder : Folder) : List ProjectRequest :=
  let compiler : ProjectRequest := ⟨.compiler, trigger, folder, none⟩
  match session.settings.externalLint.severity? with
  | some severity => [compiler, ⟨.externalLinter, trigger, folder, some severity⟩]
  | none => [compiler]

/-- A deleted file. -/
def deleted (uri : Uri) : List Command := [.delete uri]

/-- The rules have to run again over all files. -/
def needsLint (previous current : Settings) : Bool :=
  !previous.lintEnabled || previous.disabledRules ≠ current.disabledRules ||
    previous.excludedPaths ≠ current.excludedPaths

/-- What lint results need once settings are in force. -/
def followSettings (session : Session) (previous : Settings) : Effects :=
  if session.settings.lintEnabled then
    if needsLint previous session.settings then
      session.lintTracked session.workspaces.trackedFiles
    else .done []
  else .done (if previous.lintEnabled then [.clearKind .lint] else [])

/-- The findings of the external linter go when it is turned off. -/
def externalCommands (previous current : Settings) : List Command :=
  if previous.externalLintEnabled && !current.externalLintEnabled then
    [.clearKind .externalLint]
  else []

/-- New settings are put into force first. Then lint results follow them, and after these the
findings of the external linter. Settings that cannot be read leave the session as it is. -/
def configure (session : Session) (value : Json) : Session × Effects :=
  match Settings.read value with
  | .error cause => (session, .failed (.settings cause))
  | .ok settings =>
      let configured := session.withSettings settings
      let external := Effects.done (externalCommands session.settings settings)
      (configured, (configured.followSettings session.settings).andThen external)

end Session

end ElmDiagnostics
