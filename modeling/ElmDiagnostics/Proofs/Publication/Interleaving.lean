import ElmDiagnostics.Proofs.Diagnostic.SlotMap
import ElmDiagnostics.Proofs.Publication.ClientView
import Mathlib.Logic.Function.Basic

/-!
Contract: producers do not depend on each other's timing.

Owns: streams of commands, one for each kind of producer; their interleavings; and that all
interleavings lead to the same store and, once the windows are closed, to the same problems in the
client.

Does not own: deletions, which touch the slots of all producers and so belong to no stream.

A bulk command reads which files hold its kind before it writes, and writing creates and drops
records that other producers share. Seen through slots, neither matters: what a command leaves in a
slot depends on the list it finds there and on nothing else.
-/

set_option autoImplicit false

namespace ElmDiagnostics

open Diagnostic

/-! ### One command, one slot -/

/-- The producer that a command is for. A deletion is for none. -/
def Command.kind? : Command → Option Kind
  | .update _ kind _ | .replace kind _ | .clearKind kind => some kind
  | .delete _ => none

/-- The list a command leaves in its producer's slot of a file where it finds `found`. -/
def Command.written (command : Command) (uri : Uri) (found : List Diagnostic) : List Diagnostic :=
  match command with
  | .update file _ diagnostics => if uri = file then diagnostics else found
  | .replace _ results => (results.get? uri).getD []
  | .clearKind _ | .delete _ => []

namespace Board

theorem slot_applied (store : Store) {command : Command} {kind : Kind}
    (isKind : command.kind? = some kind) (uri : Uri) (other : Kind) :
    ((applied store command).1.report uri).slot other =
      if other = kind then command.written uri ((store.report uri).slot kind)
      else (store.report uri).slot other := by
  cases command with
  | update file slot diagnostics =>
      obtain rfl := Option.some.inj isKind
      rw [applied, Store.slot_update, Command.written]
      by_cases isFile : uri = file <;> by_cases isSlot : other = slot <;> simp [isFile, isSlot]
  | replace slot results =>
      obtain rfl := Option.some.inj isKind
      exact store.slot_replace slot other results uri
  | clearKind slot =>
      obtain rfl := Option.some.inj isKind
      exact store.slot_clearKind slot other uri
  | delete file => exact absurd isKind (by simp [Command.kind?])

/-- A command counts a file as changed exactly when it changes its producer's slot of the file. -/
theorem mem_applied_iff (store : Store) {command : Command} {kind : Kind}
    (isKind : command.kind? = some kind) (uri : Uri) :
    uri ∈ (applied store command).2 ↔
      ¬ SameProblems ((store.report uri).slot kind)
        (command.written uri ((store.report uri).slot kind)) := by
  cases command with
  | update file slot diagnostics =>
      obtain rfl := Option.some.inj isKind
      rw [applied, Command.written]
      by_cases isFile : uri = file
      · subst isFile
        rw [if_pos rfl, ← Store.changes_eq_true_iff]
        split
        next changed => exact iff_of_true (List.mem_singleton_self _) changed
        next unchanged => exact iff_of_false List.not_mem_nil unchanged
      · have unchanged := SameProblems.refl ((store.report uri).slot slot)
        rw [if_neg isFile]
        split <;> simp [isFile, unchanged]
  | replace slot results =>
      obtain rfl := Option.some.inj isKind
      have listed := store.mem_updateAll_iff slot (store.resetMissing slot results).entries
        (Table.keys_nodup _) uri
      rw [← Store.replace, Store.slot_replace, if_pos rfl] at listed
      exact listed
  | clearKind slot =>
      obtain rfl := Option.some.inj isKind
      rw [applied, Store.mem_clearKind_iff, Command.written, sameProblems_nil_iff]
  | delete file => exact absurd isKind (by simp [Command.kind?])

theorem recordsNonempty_applied {store : Store} (nonempty : store.RecordsNonempty)
    (command : Command) : (applied store command).1.RecordsNonempty := by
  cases command with
  | update uri kind diagnostics => exact nonempty.update uri kind diagnostics
  | replace kind results => exact nonempty.updateAll kind _
  | clearKind kind => exact nonempty.updateAll kind _
  | delete uri => exact nonempty.delete uri

end Board

/-! ### Runs of commands -/

namespace Store

def afterCommands (store : Store) (commands : List Command) : Store :=
  commands.foldl (fun store command => (Board.applied store command).1) store

theorem RecordsNonempty.afterCommands {store : Store} (nonempty : store.RecordsNonempty)
    (commands : List Command) : (store.afterCommands commands).RecordsNonempty := by
  induction commands generalizing store with
  | nil => exact nonempty
  | cons command rest inductionHypothesis =>
      exact inductionHypothesis (Board.recordsNonempty_applied nonempty command)

/-- Some command of the run, when its turn comes, counts the file as changed. -/
inductive ReceivesChange (uri : Uri) : Store → List Command → Prop where
  | now {store : Store} {command : Command} {rest : List Command}
      (changed : uri ∈ (Board.applied store command).2) : ReceivesChange uri store (command :: rest)
  | later {store : Store} {command : Command} {rest : List Command}
      (receives : ReceivesChange uri (Board.applied store command).1 rest) :
      ReceivesChange uri store (command :: rest)

theorem receivesChange_cons_iff (uri : Uri) (store : Store) (command : Command)
    (rest : List Command) :
    ReceivesChange uri store (command :: rest) ↔
      uri ∈ (Board.applied store command).2 ∨
        ReceivesChange uri (Board.applied store command).1 rest := by
  constructor
  · intro receives
    cases receives with
    | now changed => exact .inl changed
    | later receives => exact .inr receives
  · rintro (changed | receives)
    · exact .now changed
    · exact .later receives

end Store

/-! ### Streams -/

/-- The commands of a run are those of the streams, each stream in its own order. -/
inductive Interleaves : (Kind → List Command) → List Command → Prop where
  | done {streams : Kind → List Command} (exhausted : ∀ kind, streams kind = []) :
      Interleaves streams []
  | next {streams : Kind → List Command} {commands rest : List Command} {command : Command}
      (kind : Kind) (isNext : streams kind = command :: rest)
      (later : Interleaves (Function.update streams kind rest) commands) :
      Interleaves streams (command :: commands)

/-- Every stream is made of commands for its own producer. -/
def OwnStreams (streams : Kind → List Command) : Prop :=
  ∀ kind, ∀ command ∈ streams kind, command.kind? = some kind

theorem OwnStreams.rest {streams : Kind → List Command} {kind : Kind} {command : Command}
    {rest : List Command} (own : OwnStreams streams) (isNext : streams kind = command :: rest) :
    OwnStreams (Function.update streams kind rest) := by
  intro other later isLater
  by_cases isKind : other = kind
  · subst isKind
    rw [Function.update_self] at isLater
    exact own other later (isNext ▸ List.mem_cons_of_mem _ isLater)
  · rw [Function.update_of_ne isKind] at isLater
    exact own other later isLater

/-- What a stream leaves in its slot of a file. -/
def slotAfter (uri : Uri) (found : List Diagnostic) (stream : List Command) : List Diagnostic :=
  stream.foldl (fun found command => command.written uri found) found

/-- Some command of a stream changes its slot of a file. -/
def StreamChanges (uri : Uri) : List Diagnostic → List Command → Prop
  | _, [] => False
  | found, command :: rest =>
      ¬ SameProblems found (command.written uri found) ∨
        StreamChanges uri (command.written uri found) rest

/-- In every interleaving a slot ends as its own stream leaves it. -/
theorem Interleaves.slot_afterCommands {streams : Kind → List Command} {commands : List Command}
    (interleaves : Interleaves streams commands) (own : OwnStreams streams) (store : Store)
    (uri : Uri) (kind : Kind) :
    ((store.afterCommands commands).report uri).slot kind =
      slotAfter uri ((store.report uri).slot kind) (streams kind) := by
  induction interleaves generalizing store with
  | done exhausted =>
      rw [exhausted]
      rfl
  | @next streams commands rest command turn isNext later inductionHypothesis =>
      have isTurn : command.kind? = some turn := own turn command (isNext ▸ List.mem_cons_self ..)
      have afterwards := inductionHypothesis (own.rest isNext) (Board.applied store command).1
      rw [Board.slot_applied store isTurn] at afterwards
      by_cases isKind : kind = turn
      · subst isKind
        rw [if_pos rfl, Function.update_self] at afterwards
        rw [isNext]
        exact afterwards
      · rw [if_neg isKind, Function.update_of_ne isKind] at afterwards
        exact afterwards

/-- In every interleaving the files that receive a change are those that some stream changes. -/
theorem Interleaves.receivesChange_iff {streams : Kind → List Command} {commands : List Command}
    (interleaves : Interleaves streams commands) (own : OwnStreams streams) (store : Store)
    (uri : Uri) :
    store.ReceivesChange uri commands ↔
      ∃ kind, StreamChanges uri ((store.report uri).slot kind) (streams kind) := by
  induction interleaves generalizing store with
  | done exhausted =>
      constructor
      · exact fun receives => nomatch receives
      · rintro ⟨kind, changes⟩
        rw [exhausted] at changes
        exact changes.elim
  | @next streams commands rest command turn isNext later inductionHypothesis =>
      have isTurn : command.kind? = some turn := own turn command (isNext ▸ List.mem_cons_self ..)
      rw [Store.receivesChange_cons_iff, Board.mem_applied_iff store isTurn,
        inductionHypothesis (own.rest isNext)]
      simp only [Board.slot_applied store isTurn]
      constructor
      · rintro (changed | ⟨kind, changes⟩)
        · refine ⟨turn, ?_⟩
          rw [isNext]
          exact .inl changed
        · refine ⟨kind, ?_⟩
          by_cases isKind : kind = turn
          · subst isKind
            rw [if_pos rfl, Function.update_self] at changes
            rw [isNext]
            exact .inr changes
          · rw [if_neg isKind, Function.update_of_ne isKind] at changes
            exact changes
      · rintro ⟨kind, changes⟩
        by_cases isKind : kind = turn
        · subst isKind
          rw [isNext] at changes
          rcases changes with changed | changesLater
          · exact .inl changed
          · refine .inr ⟨kind, ?_⟩
            rw [if_pos rfl, Function.update_self]
            exact changesLater
        · refine .inr ⟨kind, ?_⟩
          rw [if_neg isKind, Function.update_of_ne isKind]
          exact changes

/-- All interleavings lead from a store to the same store. -/
theorem Interleaves.afterCommands_eq {streams : Kind → List Command}
    {commands others : List Command} (interleaves : Interleaves streams commands)
    (alsoInterleaves : Interleaves streams others) (own : OwnStreams streams) {store : Store}
    (nonempty : store.RecordsNonempty) :
    store.afterCommands commands = store.afterCommands others := by
  apply (nonempty.afterCommands commands).ext_slot (nonempty.afterCommands others)
  intro uri kind
  rw [interleaves.slot_afterCommands own, alsoInterleaves.slot_afterCommands own]

/-! ### Boards and clients -/

namespace Feed

def Event.command? : Event → Option Command
  | .command _ sent => some sent
  | .read _ | .elapse _ => none

/-- The commands among the events of a run. -/
def commandsOf (events : List Event) : List Command := events.filterMap Event.command?

theorem store_elapse (feed : Feed) (uri : Uri) :
    (feed.step (.elapse uri)).board.store = feed.board.store := by
  simp only [step]
  split <;> rfl

/-- Windows that close between the commands do not touch the store. -/
theorem store_run (feed : Feed) (events : List Event) :
    (feed.run events).board.store = feed.board.store.afterCommands (commandsOf events) := by
  induction events generalizing feed with
  | nil => rfl
  | cons event rest inductionHypothesis =>
      show ((feed.step event).run rest).board.store = _
      rw [inductionHypothesis]
      cases event with
      | command now command =>
          show (feed.board.handle now command).1.store.afterCommands _ = _
          rw [Board.store_handle]
          rfl
      | read uri => rfl
      | elapse uri =>
          rw [store_elapse]
          rfl

/-- The store of a board after some run from the empty one. -/
def ReachesStore (store : Store) : Prop :=
  ∃ window events, ((start window).run events).board.store = store

theorem ReachesStore.recordsNonempty {store : Store} (reached : ReachesStore store) :
    store.RecordsNonempty := by
  obtain ⟨window, events, rfl⟩ := reached
  rw [store_run]
  exact Store.empty_recordsNonempty.afterCommands _

/-- From a command that changes a file on, the file waits for a window or is shown as it is,
whatever the client showed at the start. -/
theorem agreesAt_of_receivesChange {feed : Feed} {events : List Event} {uri : Uri}
    (receives : feed.board.store.ReceivesChange uri (commandsOf events)) :
    (feed.run events).AgreesAt uri := by
  induction events generalizing feed with
  | nil => exact nomatch receives
  | cons event rest inductionHypothesis =>
      show ((feed.step event).run rest).AgreesAt uri
      cases event with
      | command now command =>
          rcases (Store.receivesChange_cons_iff _ _ _ _).mp receives with changed | receivesLater
          · have notDelete (file : Uri) : command ≠ .delete file := by
              rintro rfl
              exact absurd changed List.not_mem_nil
            refine run_agreesAt (.inl ?_) rest
            show (feed.board.handle now command).1.isOpen uri = true
            rw [Board.handle_eq_requestAll feed.board now command notDelete,
              Board.isOpen_requestAll]
            exact .inr changed
          · apply inductionHypothesis
            show (feed.board.handle now command).1.store.ReceivesChange uri _
            rw [Board.store_handle]
            exact receivesLater
      | read file => exact inductionHypothesis receives
      | elapse file =>
          apply inductionHypothesis
          rw [store_elapse]
          exact receives

/-- Two runs over interleavings of the same streams, started from the same store, end in the same
store, and the same files receive a change in both. Whatever the two clients showed at the start
and whenever windows close in between, a file that receives a change and waits for no window at the
end is shown with the same problems in both. -/
theorem producers_independent {streams : Kind → List Command} (own : OwnStreams streams)
    {first second : Feed} (reached : ReachesStore first.board.store)
    (sameStore : first.board.store = second.board.store) {firstEvents secondEvents : List Event}
    (firstInterleaves : Interleaves streams (commandsOf firstEvents))
    (secondInterleaves : Interleaves streams (commandsOf secondEvents)) :
    (first.run firstEvents).board.store = (second.run secondEvents).board.store ∧
    ∀ uri,
      (first.board.store.ReceivesChange uri (commandsOf firstEvents) ↔
        second.board.store.ReceivesChange uri (commandsOf secondEvents)) ∧
      (first.board.store.ReceivesChange uri (commandsOf firstEvents) →
        (first.run firstEvents).board.isOpen uri = false →
        (second.run secondEvents).board.isOpen uri = false →
        SameProblems ((first.run firstEvents).view uri) ((second.run secondEvents).view uri)) := by
  have sameEnd : (first.run firstEvents).board.store = (second.run secondEvents).board.store := by
    rw [store_run, store_run, ← sameStore]
    exact firstInterleaves.afterCommands_eq secondInterleaves own reached.recordsNonempty
  have sameChanges (uri : Uri) : first.board.store.ReceivesChange uri (commandsOf firstEvents) ↔
      second.board.store.ReceivesChange uri (commandsOf secondEvents) := by
    rw [firstInterleaves.receivesChange_iff own, secondInterleaves.receivesChange_iff own, sameStore]
  refine ⟨sameEnd, fun uri => ⟨sameChanges uri, fun receives firstClosed secondClosed => ?_⟩⟩
  have firstShown : SameProblems ((first.run firstEvents).view uri)
      ((first.run firstEvents).board.store.get uri) :=
    (agreesAt_of_receivesChange receives).resolve_left (by simp [firstClosed])
  have secondShown : SameProblems ((second.run secondEvents).view uri)
      ((second.run secondEvents).board.store.get uri) :=
    (agreesAt_of_receivesChange ((sameChanges uri).mp receives)).resolve_left (by simp [secondClosed])
  rw [sameEnd] at firstShown
  exact firstShown.trans secondShown.symm

/-! ### A compiler and a linter -/

def sharedFile : Uri := ⟨"file:///project/Main.elm"⟩

def shadowing : Diagnostic := .new "SHADOWING" "This name is used twice." .error default

def unusedName : Diagnostic := .new "unused_pattern" "This name is never used." .warning default

def compilerReports : Command := .replace .compile (.ofList [(sharedFile, [shadowing])])

def linterReports : Command := .update sharedFile .lint [unusedName]

/-- The compiler reports a problem and takes it back; the linter reports another one. -/
def compilerAndLinter : Kind → List Command
  | .compile => [compilerReports, .clearKind .compile]
  | .lint => [linterReports]
  | .externalLint | .typeInference => []

/-- The file is published twice: before the compiler takes its problem back, and at the end. -/
def compilerFirst : List Event :=
  [.command 0 compilerReports, .elapse sharedFile, .command 60 (.clearKind .compile),
    .command 61 linterReports, .elapse sharedFile]

/-- The file is published once, at the end. -/
def linterFirst : List Event :=
  [.command 0 linterReports, .command 1 compilerReports, .command 2 (.clearKind .compile),
    .elapse sharedFile]

theorem compiler_and_linter_independent :
    OwnStreams compilerAndLinter ∧
    ReachesStore (start 50).board.store ∧
    Interleaves compilerAndLinter (commandsOf compilerFirst) ∧
    Interleaves compilerAndLinter (commandsOf linterFirst) ∧
    (start 50).board.store.ReceivesChange sharedFile (commandsOf compilerFirst) ∧
    ((start 50).run compilerFirst).board.isOpen sharedFile = false ∧
    ((start 50).run linterFirst).board.isOpen sharedFile = false ∧
    ((start 50).run compilerFirst).board.store = ((start 50).run linterFirst).board.store ∧
    SameProblems (((start 50).run compilerFirst).view sharedFile)
      (((start 50).run linterFirst).view sharedFile) := by
  have own : OwnStreams compilerAndLinter := by
    intro kind command isCommand
    cases kind <;> simp [compilerAndLinter] at isCommand
    · rcases isCommand with rfl | rfl <;> rfl
    · rw [isCommand]
      rfl
  have reached : ReachesStore (start 50).board.store := ⟨50, [], rfl⟩
  have firstInterleaves : Interleaves compilerAndLinter (commandsOf compilerFirst) :=
    .next .compile rfl (.next .compile rfl (.next .lint rfl (.done fun kind => by cases kind <;> rfl)))
  have secondInterleaves : Interleaves compilerAndLinter (commandsOf linterFirst) :=
    .next .lint rfl (.next .compile rfl (.next .compile rfl (.done fun kind => by cases kind <;> rfl)))
  have receives : (start 50).board.store.ReceivesChange sharedFile (commandsOf compilerFirst) := by
    refine .now ((Board.mem_applied_iff _ rfl sharedFile).mpr ?_)
    intro same
    have shorter := ((sameProblems_iff_perm _ _).mp same).length_eq
    exact absurd shorter (by decide)
  have firstClosed : ((start 50).run compilerFirst).board.isOpen sharedFile = false := by decide
  have secondClosed : ((start 50).run linterFirst).board.isOpen sharedFile = false := by decide
  obtain ⟨sameStore, views⟩ :=
    producers_independent own reached rfl firstInterleaves secondInterleaves
  exact ⟨own, reached, firstInterleaves, secondInterleaves, receives, firstClosed, secondClosed,
    sameStore, (views sharedFile).2 receives firstClosed secondClosed⟩

end Feed

end ElmDiagnostics
