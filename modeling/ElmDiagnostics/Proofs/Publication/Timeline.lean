import ElmDiagnostics.Proofs.Chronicle
import ElmDiagnostics.Proofs.Publication.Interleaving
import Mathlib.Data.List.Nodup

/-!
Contract: what happens to a board, moment by moment.

Owns: `Moment`, one move of a board; which files it changes and publishes, and which windows it
leaves open; `Timeline`, the histories in which no window is passed over; and what a history says
about the windows that are open at its end.

Does not own: what brings the moments about. Several may share a time, in any order, so a command
may come just before or just after a window that closes at the same time.
-/

set_option autoImplicit false

namespace ElmDiagnostics

open Diagnostic

/-- The slots of all files. -/
def Store.slots (store : Store) : SlotMap := fun uri => (store.report uri).slot

/-- All diagnostics of a file, repeated problems included. -/
def Store.contents (store : Store) (uri : Uri) : List Diagnostic := store.slots.flattened uri

/-- What moves a board. -/
inductive Cause where
  | command (command : Command)
  /-- A window closes. -/
  | timer (window : Window)
  /-- The last producer lets go. -/
  | farewell

def Board.take (board : Board) (time : Nat) : Cause → Board × List Publish
  | .command command => board.handle time command
  | .timer window => board.close window
  | .farewell => board.drain time

/-- One move of a board. -/
structure Moment where
  time : Nat
  cause : Cause
  before : Board

namespace Moment

def after (moment : Moment) : Board := (moment.before.take moment.time moment.cause).1

def published (moment : Moment) : List Publish := (moment.before.take moment.time moment.cause).2

def Publishes (moment : Moment) (uri : Uri) : Prop := uri ∈ moment.published.map (·.uri)

/-- The file has other diagnostics afterwards. Their order does not count. -/
def Changes (moment : Moment) (uri : Uri) : Prop :=
  ¬ SameProblems (moment.before.store.contents uri) (moment.after.store.contents uri)

end Moment

/-! ### What changes -/

theorem Command.isDelete_or_hasKind (command : Command) :
    (∃ uri, command = .delete uri) ∨ ∃ kind, command.kind? = some kind := by
  cases command with
  | update _ kind _ | replace kind _ | clearKind kind => exact .inr ⟨kind, rfl⟩
  | delete uri => exact .inl ⟨uri, rfl⟩

theorem Command.ne_delete_of_kind {command : Command} {kind : Kind}
    (isKind : command.kind? = some kind) (uri : Uri) : command ≠ .delete uri := by
  rintro rfl
  cases isKind

namespace Board

/-- A command other than a deletion counts exactly those files as changed whose contents it
changes. -/
theorem mem_applied_iff_contents (store : Store) {command : Command} {kind : Kind}
    (isKind : command.kind? = some kind) (uri : Uri) :
    uri ∈ (applied store command).2 ↔
      ¬ SameProblems (store.contents uri) ((applied store command).1.contents uri) := by
  have written : (applied store command).1.slots uri =
      store.slots.update uri kind (command.written uri (store.slots uri kind)) uri := by
    funext other
    simp only [Store.slots, SlotMap.update, slot_applied store isKind, true_and]
  have contents : (applied store command).1.contents uri =
      (store.slots.update uri kind (command.written uri (store.slots uri kind))).flattened uri :=
    congrArg Kind.all.flatMap written
  rw [mem_applied_iff store isKind, contents]
  exact not_congr (store.slots.flattened_update_sameProblems_iff uri kind _).symm

end Board

namespace Moment

variable {moment : Moment} {time : Nat} {board : Board} {uri : Uri}

theorem changes_command_iff {command : Command} {kind : Kind}
    (isKind : command.kind? = some kind) :
    Changes ⟨time, .command command, board⟩ uri ↔ uri ∈ (Board.applied board.store command).2 := by
  rw [Board.mem_applied_iff_contents board.store isKind]
  unfold Changes after Board.take
  rw [Board.store_handle]

theorem changes_delete {file : Uri} (changes : Changes ⟨time, .command (.delete file), board⟩ uri) :
    uri = file := by
  by_contra different
  apply changes
  show SameProblems (board.store.contents uri) ((board.store.delete file).contents uri)
  unfold Store.contents SlotMap.flattened Store.slots
  rw [Store.report_delete, if_neg different]
  exact .refl _

/-- Only a command changes what a file has. -/
theorem Changes.exists_command (changes : moment.Changes uri) :
    ∃ command, moment.cause = .command command := by
  obtain ⟨time, cause, board⟩ := moment
  cases cause with
  | command command => exact ⟨command, rfl⟩
  | timer window => exact absurd (.refl _) changes
  | farewell =>
      have sameStore : (Moment.after ⟨time, .farewell, board⟩).store = board.store :=
        board.store_closeAll _
      unfold Changes at changes
      rw [sameStore] at changes
      exact absurd (.refl _) changes

/-! ### What is published -/

theorem after_command {command : Command} {kind : Kind} (isKind : command.kind? = some kind) :
    after ⟨time, .command command, board⟩ =
      { board with store := (Board.applied board.store command).1 }.requestAll time
        (Board.applied board.store command).2 :=
  congrArg Prod.fst
    (board.handle_eq_requestAll time command (Command.ne_delete_of_kind isKind))

theorem published_command {command : Command} {kind : Kind} (isKind : command.kind? = some kind) :
    published ⟨time, .command command, board⟩ = [] :=
  congrArg Prod.snd
    (board.handle_eq_requestAll time command (Command.ne_delete_of_kind isKind))

theorem publishes_command_iff {command : Command} :
    Publishes ⟨time, .command command, board⟩ uri ↔ command = .delete uri := by
  rcases command.isDelete_or_hasKind with ⟨file, rfl⟩ | ⟨kind, isKind⟩
  · simp [Publishes, published, Board.take, Board.handle, eq_comm]
  · unfold Publishes
    simp [published_command isKind, Command.ne_delete_of_kind isKind uri]

theorem published_farewell (time : Nat) (board : Board) :
    published ⟨time, .farewell, board⟩ =
      (stableSort (fun left right => left ≤ right) (board.windows.map (·.uri))).map
        (board.publish time) :=
  board.published_drain time

theorem publishes_farewell_iff :
    Publishes ⟨time, .farewell, board⟩ uri ↔ board.isOpen uri = true := by
  unfold Publishes
  rw [published_farewell, List.map_map, ← Board.mem_drained_iff]
  simp [Function.comp_def, Board.publish]

/-- Only a deletion, a window that closes and the end publish. -/
theorem publishes_iff :
    moment.Publishes uri ↔
      match moment.cause with
      | .command command => command = .delete uri
      | .timer window => window.uri = uri
      | .farewell => moment.before.isOpen uri = true := by
  obtain ⟨time, cause, board⟩ := moment
  cases cause with
  | command command => exact publishes_command_iff
  | timer window => simp [Publishes, published, Board.take, Board.close, Board.publish, eq_comm]
  | farewell => exact publishes_farewell_iff

/-! ### Which windows are open -/

theorem mem_windows_after_command_iff {command : Command} {kind : Kind}
    (isKind : command.kind? = some kind) (window : Window) :
    window ∈ (after ⟨time, .command command, board⟩).windows ↔
      window ∈ board.windows ∨
        Changes ⟨time, .command command, board⟩ window.uri ∧ board.isOpen window.uri = false ∧
          window.closes = time + board.window := by
  rw [changes_command_iff isKind, after_command isKind, Board.mem_windows_requestAll, and_left_comm]
  rfl

theorem windows_after_farewell (time : Nat) (board : Board) :
    (after ⟨time, .farewell, board⟩).windows = [] := by
  unfold after Board.take Board.drain
  dsimp only
  rw [Board.windows_closeAll, List.map_map, List.filter_eq_nil_iff]
  intro window isOpen
  have isDrained := (board.mem_drained_iff window.uri).mpr
    ((board.isOpen_iff window.uri).mpr (List.mem_map_of_mem isOpen))
  simpa [Function.comp_def] using isDrained

/-- A window is open after a moment that does not publish its file if it was open before, or has
full length and the moment changes a file that had none. -/
theorem mem_windows_after_iff (moment : Moment) (window : Window) :
    window ∈ moment.after.windows ↔
      ¬ moment.Publishes window.uri ∧
        (window ∈ moment.before.windows ∨
          moment.Changes window.uri ∧ moment.before.isOpen window.uri = false ∧
            window.closes = moment.time + moment.before.window) := by
  obtain ⟨time, cause, board⟩ := moment
  cases cause with
  | command command =>
      rw [publishes_command_iff]
      rcases command.isDelete_or_hasKind with ⟨file, rfl⟩ | ⟨kind, isKind⟩
      · show window ∈ (Board.cancel _ file).windows ↔ _
        rw [Board.mem_windows_cancel, Command.delete.injEq, and_comm, ne_comm]
        refine and_congr_right fun different => (or_iff_left ?_).symm
        exact fun opened => different (changes_delete opened.1).symm
      · rw [mem_windows_after_command_iff isKind]
        exact (and_iff_right (Command.ne_delete_of_kind isKind _)).symm
  | timer closing =>
      have nothingChanges : ¬ Changes ⟨time, .timer closing, board⟩ window.uri :=
        fun changes => nomatch changes.exists_command
      show window ∈ (board.cancel closing.uri).windows ↔ _
      rw [Board.mem_windows_cancel, publishes_iff, and_comm, ne_comm]
      simp only [nothingChanges, false_and, or_false, ne_eq]
  | farewell =>
      have nothingChanges : ¬ Changes ⟨time, .farewell, board⟩ window.uri :=
        fun changes => nomatch changes.exists_command
      rw [windows_after_farewell, publishes_farewell_iff, Board.isOpen_iff]
      simp only [nothingChanges, false_and, or_false, List.not_mem_nil, false_iff]
      exact fun ⟨notOpen, isOpen⟩ => notOpen (List.mem_map_of_mem isOpen)

/-- A file that a moment changes and does not publish waits for a window afterwards. -/
theorem Changes.exists_window (changes : moment.Changes uri)
    (notPublished : ¬ moment.Publishes uri) :
    ∃ pending ∈ moment.after.windows, pending.uri = uri := by
  cases wasOpen : moment.before.isOpen uri with
  | true =>
      obtain ⟨pending, isOpen, rfl⟩ := List.mem_map.mp ((moment.before.isOpen_iff uri).mp wasOpen)
      have staysOpen := (moment.mem_windows_after_iff pending).mpr ⟨notPublished, .inl isOpen⟩
      exact ⟨pending, staysOpen, rfl⟩
  | false =>
      refine ⟨⟨uri, moment.time + moment.before.window⟩, ?_, rfl⟩
      exact (moment.mem_windows_after_iff _).mpr ⟨notPublished, .inr ⟨changes, wasOpen, rfl⟩⟩

theorem window_after (moment : Moment) : moment.after.window = moment.before.window := by
  obtain ⟨time, cause, board⟩ := moment
  cases cause with
  | command command =>
      rcases command.isDelete_or_hasKind with ⟨file, rfl⟩ | ⟨kind, isKind⟩
      · rfl
      · rw [after_command isKind, Board.window_requestAll]
  | timer closing => rfl
  | farewell => exact board.window_closeAll _

end Moment

/-! ### The order of windows -/

/-- Every file has one window at most, and windows stand in the order in which they close. -/
structure Board.Orderly (board : Board) : Prop where
  distinctFiles : (board.windows.map (·.uri)).Nodup
  inOrder : board.windows.Pairwise fun earlier later => earlier.closes ≤ later.closes

namespace Board.Orderly

variable {board : Board}

theorem of_sublist {kept : Board} (orderly : board.Orderly)
    (isKept : kept.windows.Sublist board.windows) : kept.Orderly :=
  ⟨orderly.distinctFiles.sublist (isKept.map _), orderly.inOrder.sublist isKept⟩

theorem request (orderly : board.Orderly) {now : Nat}
    (noneLater : ∀ window ∈ board.windows, window.closes ≤ now + board.window) (uri : Uri) :
    (board.request now uri).Orderly := by
  unfold Board.request
  split
  next => exact orderly
  next notOpen =>
    rw [Board.isOpen_iff] at notOpen
    constructor
    · rw [List.map_append, List.map_singleton, ← List.concat_eq_append, List.nodup_concat]
      exact ⟨notOpen, orderly.distinctFiles⟩
    · refine List.pairwise_append.mpr ⟨orderly.inOrder, List.pairwise_singleton _ _, ?_⟩
      intro window isOpen opened isOpened
      obtain rfl := List.mem_singleton.mp isOpened
      exact noneLater window isOpen

theorem requestAll (orderly : board.Orderly) {now : Nat}
    (noneLater : ∀ window ∈ board.windows, window.closes ≤ now + board.window)
    (uris : List Uri) : (board.requestAll now uris).Orderly := by
  induction uris generalizing board with
  | nil => exact orderly
  | cons uri rest inductionHypothesis =>
      apply inductionHypothesis (orderly.request noneLater uri)
      intro window isOpen
      rw [window_request]
      rcases (board.mem_windows_request now uri window).mp isOpen with wasOpen | ⟨_, rfl⟩
      · exact noneLater window wasOpen
      · exact Nat.le_refl _

theorem after {moment : Moment} (orderly : moment.before.Orderly)
    (noneLater : ∀ window ∈ moment.before.windows,
      window.closes ≤ moment.time + moment.before.window) : moment.after.Orderly := by
  obtain ⟨time, cause, board⟩ := moment
  cases cause with
  | command command =>
      rcases command.isDelete_or_hasKind with ⟨file, rfl⟩ | ⟨kind, isKind⟩
      · exact orderly.of_sublist List.filter_sublist
      · rw [Moment.after_command isKind]
        have sameWindows : Orderly { board with store := (applied board.store command).1 } :=
          ⟨orderly.distinctFiles, orderly.inOrder⟩
        exact sameWindows.requestAll noneLater _
  | timer closing => exact orderly.of_sublist List.filter_sublist
  | farewell =>
      apply orderly.of_sublist
      rw [Moment.windows_after_farewell]
      exact List.nil_sublist _

end Board.Orderly

/-! ### Histories -/

/-- A moment may come next: time does not run backwards, no window is passed over, and a window
closes at its own time. -/
structure Moment.Follows (moment : Moment) (history : List Moment) : Prop where
  notEarlier : ∀ past ∈ history, past.time ≤ moment.time
  notOverdue : ∀ window ∈ moment.before.windows, moment.time ≤ window.closes
  closesOpen : ∀ window, moment.cause = .timer window →
    window ∈ moment.before.windows ∧ window.closes = moment.time

/-- What is published without being deleted had an open window. -/
theorem Moment.Follows.deletes_or_open {moment : Moment} {history : List Moment} {uri : Uri}
    (follows : moment.Follows history) (isPublished : moment.Publishes uri) :
    moment.cause = .command (.delete uri) ∨ uri ∈ moment.before.windows.map (·.uri) := by
  obtain ⟨time, cause, board⟩ := moment
  have published := publishes_iff.mp isPublished
  cases cause with
  | command command => exact .inl (congrArg Cause.command published)
  | timer closing => exact .inr (published ▸ List.mem_map_of_mem (follows.closesOpen closing rfl).1)
  | farewell => exact .inr ((board.isOpen_iff uri).mp published)

/-- Whatever is published is what the file shows right after the moment. -/
theorem Moment.Follows.eq_of_mem_published {moment : Moment} {history : List Moment}
    (follows : moment.Follows history) {publish : Publish}
    (isPublished : publish ∈ moment.published) :
    publish = ⟨moment.time, publish.uri, moment.after.store.get publish.uri⟩ := by
  obtain ⟨time, cause, board⟩ := moment
  cases cause with
  | command command =>
      rcases command.isDelete_or_hasKind with ⟨file, rfl⟩ | ⟨kind, isKind⟩
      · obtain rfl := List.mem_singleton.mp isPublished
        have nothingLeft : (board.store.delete file).get file = [] := by
          rw [Store.get, Store.report_delete, if_pos rfl, FileReport.merged_empty]
        exact congrArg (Publish.mk time file) nothingLeft.symm
      · rw [published_command isKind] at isPublished
        exact absurd isPublished List.not_mem_nil
  | timer closing =>
      obtain rfl := List.mem_singleton.mp isPublished
      obtain ⟨_, atItsTime⟩ := follows.closesOpen closing rfl
      exact congrArg (board.publish · closing.uri) atItsTime
  | farewell =>
      rw [published_farewell] at isPublished
      obtain ⟨file, _, rfl⟩ := List.mem_map.mp isPublished
      exact congrArg (Publish.mk time file <| Store.get · file) (board.store_closeAll _).symm

/-- The moments that lead from an empty board to the present one. -/
inductive Timeline (window : Nat) : List Moment → Board → Prop where
  | start : Timeline window [] (.new window)
  | next {history : List Moment} {moment : Moment}
      (earlier : Timeline window history moment.before) (follows : moment.Follows history) :
      Timeline window (history ++ [moment]) moment.after

/-- The window of a file that closes at a time was opened by a command that changed the file when it
had no window, and the file has not been published since. -/
def OpenedIn (window : Nat) (history : List Moment) (uri : Uri) (closes : Nat) : Prop :=
  ∃ past opening since, history = past ++ opening :: since ∧
    opening.time + window = closes ∧
    (∃ command, opening.cause = .command command) ∧ opening.Changes uri ∧
    opening.before.isOpen uri = false ∧
    ∀ moment ∈ opening :: since, ¬ moment.Publishes uri

theorem OpenedIn.concat {window closes : Nat} {history : List Moment} {uri : Uri} {moment : Moment}
    (opened : OpenedIn window history uri closes) (notPublished : ¬ moment.Publishes uri) :
    OpenedIn window (history ++ [moment]) uri closes := by
  obtain ⟨past, opening, since, split, closesAfter, byCommand, changes, wasClosed, silent⟩ := opened
  refine ⟨past, opening, since ++ [moment], ?_, closesAfter, byCommand, changes, wasClosed, ?_⟩
  · rw [split, List.append_assoc, List.cons_append]
  · exact List.forall_mem_append.mpr ⟨silent, List.forall_mem_singleton.mpr notPublished⟩

namespace Timeline

variable {window : Nat} {history : List Moment} {board : Board}

theorem window_eq (timeline : Timeline window history board) : board.window = window := by
  induction timeline with
  | start => rfl
  | next _ _ inductionHypothesis => rw [Moment.window_after, inductionHypothesis]

/-- Every moment of a history follows those before it. -/
theorem atEach (timeline : Timeline window history board) :
    AtEach (fun earlier moment =>
      Timeline window earlier moment.before ∧ moment.Follows earlier) history := by
  induction timeline with
  | start => exact atEach_nil _
  | next earlier follows inductionHypothesis =>
      exact (atEach_concat_iff _ _ _).mpr ⟨inductionHypothesis, earlier, follows⟩

theorem opened (timeline : Timeline window history board) :
    ∀ pending ∈ board.windows, OpenedIn window history pending.uri pending.closes := by
  induction timeline with
  | start => exact fun _ isOpen => absurd isOpen List.not_mem_nil
  | @next history moment earlier follows inductionHypothesis =>
      intro pending isOpen
      obtain ⟨notPublished, wasOpen | ⟨changes, wasClosed, closes⟩⟩ :=
        (moment.mem_windows_after_iff pending).mp isOpen
      · exact (inductionHypothesis pending wasOpen).concat notPublished
      · rw [earlier.window_eq] at closes
        exact ⟨history, moment, [], rfl, closes.symm, changes.exists_command, changes, wasClosed,
          List.forall_mem_singleton.mpr notPublished⟩

/-- An open window closes one window's length after a moment of the past. -/
theorem closes_le (timeline : Timeline window history board) {now : Nat}
    (past : ∀ moment ∈ history, moment.time ≤ now) :
    ∀ pending ∈ board.windows, pending.closes ≤ now + window := by
  intro pending isOpen
  obtain ⟨_, opening, _, rfl, closes, _⟩ := timeline.opened pending isOpen
  have isPast := past opening (List.mem_append_right _ (List.mem_cons_self ..))
  omega

theorem orderly (timeline : Timeline window history board) : board.Orderly := by
  induction timeline with
  | start => exact ⟨List.nodup_nil, .nil⟩
  | next earlier follows inductionHypothesis =>
      apply inductionHypothesis.after
      rw [earlier.window_eq]
      exact earlier.closes_le follows.notEarlier

theorem notOverdue (timeline : Timeline window history board) :
    ∀ past ∈ history, ∀ pending ∈ board.windows, past.time ≤ pending.closes := by
  cases timeline with
  | start => exact fun _ isPast => absurd isPast List.not_mem_nil
  | @next history moment earlier follows =>
      have notPassed : ∀ pending ∈ moment.after.windows, moment.time ≤ pending.closes := by
        intro pending isOpen
        obtain ⟨_, wasOpen | ⟨_, _, closes⟩⟩ := (moment.mem_windows_after_iff pending).mp isOpen
        · exact follows.notOverdue pending wasOpen
        · omega
      refine List.forall_mem_append.mpr ⟨?_, List.forall_mem_singleton.mpr notPassed⟩
      intro past isPast pending isOpen
      exact Nat.le_trans (follows.notEarlier past isPast) (notPassed pending isOpen)

/-- A change is published in time, or a window that closes in time is still open for its file. -/
theorem answered (timeline : Timeline window history board) {past later : List Moment}
    {change : Moment} {uri : Uri} (split : history = past ++ change :: later)
    (changes : change.Changes uri) :
    (∃ answer ∈ change :: later, answer.Publishes uri ∧ answer.time ≤ change.time + window) ∨
      ∃ pending ∈ board.windows, pending.uri = uri ∧ pending.closes ≤ change.time + window := by
  induction timeline generalizing later with
  | start => exact absurd split.symm (by simp)
  | @next history moment earlier follows inductionHypothesis =>
      rcases concat_eq_append_cons split with ⟨_, rfl, rfl⟩ | ⟨between, sameHistory, rfl⟩
      · by_cases isPublished : moment.Publishes uri
        · exact .inl ⟨moment, List.mem_cons_self .., isPublished, Nat.le_add_right _ _⟩
        · obtain ⟨pending, isOpen, isFile⟩ := changes.exists_window isPublished
          have untilNow : ∀ past ∈ history ++ [moment], past.time ≤ moment.time :=
            List.forall_mem_append.mpr
              ⟨follows.notEarlier, List.forall_mem_singleton.mpr (Nat.le_refl _)⟩
          have closesInTime := (earlier.next follows).closes_le untilNow pending isOpen
          exact .inr ⟨pending, isOpen, isFile, closesInTime⟩
      · rw [← List.cons_append]
        rcases inductionHypothesis sameHistory with ⟨answer, isAnswer, inTime⟩ | waits
        · exact .inl ⟨answer, List.mem_append_left _ isAnswer, inTime⟩
        obtain ⟨pending, isOpen, rfl, inTime⟩ := waits
        by_cases isPublished : moment.Publishes pending.uri
        · have notOverdue := follows.notOverdue pending isOpen
          exact .inl ⟨moment, by simp, isPublished, Nat.le_trans notOverdue inTime⟩
        · have staysOpen := (moment.mem_windows_after_iff pending).mpr ⟨isPublished, .inl isOpen⟩
          exact .inr ⟨pending, staysOpen, rfl, inTime⟩

/-- Between two moments that publish a file, or with the second, a command changes or deletes it. -/
theorem separated (timeline : Timeline window history board) {past between later : List Moment}
    {first second : Moment} {uri : Uri}
    (split : history = past ++ first :: (between ++ second :: later))
    (isPublished : first.Publishes uri) (publishedAgain : second.Publishes uri) :
    second.cause = .command (.delete uri) ∨
      ∃ change ∈ between, (∃ command, change.cause = .command command) ∧ change.Changes uri := by
  have splitAtSecond : history = (past ++ first :: between) ++ second :: later := by
    rw [split, List.append_assoc, List.cons_append]
  obtain ⟨untilSecond, follows⟩ := timeline.atEach _ second later splitAtSecond
  refine (follows.deletes_or_open publishedAgain).imp_right fun wasOpen => ?_
  obtain ⟨pending, isOpen, rfl⟩ := List.mem_map.mp wasOpen
  obtain ⟨_, opening, _, sameHistory, _, byCommand, changes, _, silent⟩ :=
    untilSecond.opened pending isOpen
  -- The window was opened after the first publication, since nothing was published after that.
  have notAfter := fun isAfter => silent first isAfter isPublished
  exact ⟨opening, mem_of_append_cons_eq sameHistory notAfter, byCommand, changes⟩

end Timeline

end ElmDiagnostics
