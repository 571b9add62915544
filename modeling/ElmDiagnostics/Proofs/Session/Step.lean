import ElmDiagnostics.Proofs.Session.Dialogue

/-!
Contract: what one step of a dialogue can do.

Owns: the commands that a step sends and the session it leads to; where a diagnostic comes from that
a file did not hold before; and how the ledgers grow.

Does not own: whole runs. Their invariants are proved elsewhere, from the statements here.
-/

set_option autoImplicit false

namespace ElmDiagnostics

/-! ### Findings with their severity -/

namespace ProjectResults

theorem get?_foldl_insert (pairs : List (Uri × List Diagnostic)) (results : ProjectResults)
    (distinctFiles : (pairs.map (·.1)).Nodup) (wanted : Uri) :
    (pairs.foldl (fun results pair => results.insert pair.1 pair.2) results).get? wanted =
      (pairs.lookup wanted).or (results.get? wanted) := by
  induction pairs generalizing results with
  | nil => rfl
  | cons pair rest inductionHypothesis =>
      obtain ⟨notLater, restDistinct⟩ := List.nodup_cons.mp distinctFiles
      rw [List.foldl_cons, inductionHypothesis _ restDistinct, Table.get?_insert, List.lookup_cons]
      by_cases isFile : wanted = pair.1
      · rw [isFile, Store.lookup_eq_none_of_not_mem notLater]
        simp
      · simp [isFile, beq_false_of_ne isFile]

theorem get?_withSeverity (results : ProjectResults) (severity : Severity) (uri : Uri) :
    (results.withSeverity severity).get? uri =
      (results.get? uri).map (List.map fun diagnostic => { diagnostic with severity }) := by
  have sameKeys : (results.entries.map fun entry =>
      (entry.1, entry.2.map fun diagnostic => { diagnostic with severity })).map (·.1) =
        results.keys := by
    rw [List.map_map]
    rfl
  rw [withSeverity, Table.ofList, get?_foldl_insert _ _ (sameKeys ▸ results.keys_nodup),
    Table.get?_empty, Option.or_none, Table.get?]
  induction results.entries with
  | nil => rfl
  | cons entry rest inductionHypothesis =>
      rw [List.map_cons, List.lookup_cons, List.lookup_cons]
      split
      · rfl
      · exact inductionHypothesis

end ProjectResults

/-- The finding as the run shows it: with the severity that the request asks for, if it does. -/
def ProjectRequest.graded (request : ProjectRequest) (diagnostic : Diagnostic) : Diagnostic :=
  { diagnostic with severity := request.severity.getD diagnostic.severity }

theorem ProjectRequest.graded_of_none {request : ProjectRequest}
    (noSeverity : request.severity = none) : request.graded = id := by
  funext diagnostic
  simp [graded, noSeverity]

/-- The command puts the diagnostic into the slot of the file. -/
def Command.Shows : Command → Uri → Kind → Diagnostic → Prop
  | .update uri kind diagnostics, file, slot, diagnostic =>
      file = uri ∧ slot = kind ∧ diagnostic ∈ diagnostics
  | .replace kind results, file, slot, diagnostic =>
      slot = kind ∧ diagnostic ∈ (results.get? file).getD []
  | .clearKind _, _, _, _ => False
  | .delete _, _, _, _ => False

namespace Dialogue

variable {kindOf : ProjectAnalyser → Option Kind}

/-- A finished run replaces the slots of its kind by what it reports, and touches no others. -/
theorem slot_send_answered (dialogue : Dialogue) (request : ProjectRequest) (kind : Kind)
    (results : ProjectResults) (uri : Uri) (slot : Kind) :
    (dialogue.send (request.answered kind (.ok results))).slot uri slot =
      if slot = kind then ((results.get? uri).getD []).map request.graded
      else dialogue.slot uri slot := by
  unfold ProjectRequest.answered
  cases given : request.severity with
  | some severity =>
      have isGraded : request.graded = fun diagnostic => { diagnostic with severity } := by
        funext diagnostic
        simp [ProjectRequest.graded, given]
      dsimp only
      rw [slot_send_singleton, Board.applied, Store.slot_replace,
        ProjectResults.get?_withSeverity, isGraded]
      cases results.get? uri <;> rfl
  | none =>
      dsimp only
      rw [slot_send_singleton, Board.applied, Store.slot_replace,
        ProjectRequest.graded_of_none given, List.map_id]
      rfl

theorem slot_send_reported (dialogue : Dialogue) {request : ProjectRequest} {kind : Kind}
    (itsKind : kindOf request.analyser = some kind) (results : ProjectResults) (uri : Uri)
    (slot : Kind) :
    (dialogue.send (reported kindOf request (.ok results))).slot uri slot =
      if slot = kind then ((results.get? uri).getD []).map request.graded
      else dialogue.slot uri slot := by
  unfold reported
  rw [itsKind]
  exact slot_send_answered dialogue request kind results uri slot

theorem send_append (dialogue : Dialogue) (first second : List Command) :
    dialogue.send (first ++ second) = (dialogue.send first).send second := by
  unfold send Feed.run
  rw [List.map_append, List.foldl_append]

/-! ### Commands and session of a step -/

theorem run_concat (dialogue : Dialogue) (events : List Event) (event : Event) :
    dialogue.run kindOf (events ++ [event]) = (dialogue.run kindOf events).step kindOf event := by
  unfold run
  rw [List.foldl_append]
  rfl

/-- The commands that a step sends. -/
def sent (kindOf : ProjectAnalyser → Option Kind) (dialogue : Dialogue) : Event → List Command
  | .opened uri =>
      match dialogue.session.refresh uri with
      | .ok (commands, _) => commands
      | .error _ => []
  | .changed uri =>
      match dialogue.session.changed uri with
      | .ok (commands, _) => commands
      | .error _ => []
  | .deleted uri => Session.deleted uri
  | .configured value => (dialogue.session.configure value).2.commands
  | .checkAnswered ticket answer =>
      match dialogue.checks.answer? ticket answer with
      | some (check, _) => check.request.answered answer
      | none => []
  | .runFinished ticket answer =>
      match dialogue.runs.answer? ticket answer with
      | some (request, _) => reported kindOf request answer
      | none => []
  | _ => []

theorem feed_step (dialogue : Dialogue) {event : Event} (notElapsed : ∀ uri, event ≠ .elapsed uri) :
    (dialogue.step kindOf event).feed = (dialogue.send (dialogue.sent kindOf event)).feed := by
  cases event with
  | opened file =>
      simp only [step, sent]
      cases dialogue.session.refresh file <;> rfl
  | changed file =>
      simp only [step, sent]
      rcases dialogue.session.changed file with _ | ⟨_, _ | _⟩ <;> rfl
  | treeSet file tree =>
      simp only [step, sent]
      cases dialogue.session.workspaces.setTree file tree <;> rfl
  | checkAnswered ticket answer =>
      simp only [step, sent]
      cases dialogue.checks.answer? ticket answer <;> rfl
  | runFinished ticket answer =>
      simp only [step, sent]
      cases dialogue.runs.answer? ticket answer <;> rfl
  | elapsed file => exact absurd rfl (notElapsed file)
  | _ => rfl

theorem slot_step (dialogue : Dialogue) (event : Event) (uri : Uri) (kind : Kind) :
    (dialogue.step kindOf event).slot uri kind =
      (dialogue.send (dialogue.sent kindOf event)).slot uri kind := by
  by_cases isElapsed : ∃ file, event = .elapsed file
  · obtain ⟨file, rfl⟩ := isElapsed
    exact dialogue.slot_elapse file uri kind
  · unfold slot
    rw [feed_step dialogue (not_exists.mp isElapsed)]

/-- The session that a step leads to. -/
def sessionAfter (session : Session) : Event → Session
  | .configured value => (session.configure value).1
  | .folderAdded root => { session with workspaces := session.workspaces.addFolder root }
  | .treeSet uri tree =>
      match session.workspaces.setTree uri tree with
      | .ok workspaces => { session with workspaces }
      | .error _ => session
  | .treeRemoved uri => { session with workspaces := session.workspaces.removeTree uri }
  | _ => session

theorem session_step (dialogue : Dialogue) (event : Event) :
    (dialogue.step kindOf event).session = sessionAfter dialogue.session event := by
  cases event with
  | opened file =>
      simp only [step, sessionAfter]
      cases dialogue.session.refresh file <;> rfl
  | changed file =>
      simp only [step, sessionAfter]
      rcases dialogue.session.changed file with _ | ⟨_, _ | _⟩ <;> rfl
  | treeSet file tree =>
      simp only [step, sessionAfter]
      cases dialogue.session.workspaces.setTree file tree <;> rfl
  | checkAnswered ticket answer =>
      simp only [step, sessionAfter]
      cases dialogue.checks.answer? ticket answer <;> rfl
  | runFinished ticket answer =>
      simp only [step, sessionAfter]
      cases dialogue.runs.answer? ticket answer <;> rfl
  | _ => rfl

theorem settings_sessionAfter {session : Session} {event : Event}
    (notConfigured : ∀ value, event ≠ .configured value) :
    (sessionAfter session event).settings = session.settings := by
  cases event with
  | configured value => exact absurd rfl (notConfigured value)
  | treeSet uri tree =>
      simp only [sessionAfter]
      split <;> rfl
  | _ => rfl

theorem workspaces_sessionAfter_configured (session : Session) (value : Json) :
    (sessionAfter session (.configured value)).workspaces = session.workspaces := by
  unfold sessionAfter Session.configure
  dsimp only
  split <;> rfl

theorem tree?_sessionAfter_of_none {session : Session} {event : Event} {uri : Uri}
    (treeless : session.workspaces.tree? uri = none) (noTree : ∀ tree, event ≠ .treeSet uri tree) :
    (sessionAfter session event).workspaces.tree? uri = none := by
  cases event with
  | configured value =>
      rw [workspaces_sessionAfter_configured]
      exact treeless
  | folderAdded root => exact Workspaces.tree?_addFolder_of_none treeless root
  | treeSet file tree =>
      simp only [sessionAfter]
      split
      next workspaces succeeds =>
        have isOther : uri ≠ file := by
          rintro rfl
          exact noTree tree rfl
        rw [Workspaces.tree?_setTree succeeds, if_neg isOther]
        exact treeless
      next => exact treeless
  | treeRemoved file =>
      change (session.workspaces.removeTree file).tree? uri = none
      rw [Workspaces.tree?_removeTree, treeless, ite_self]
  | _ => exact treeless

/-- In the course of the run, no lint run overflows while it follows new settings. -/
def NeverOverflows (kindOf : ProjectAnalyser → Option Kind) (initial : Dialogue)
    (events : List Event) : Prop :=
  ∀ before value, before ++ [.configured value] <+: events →
    ¬ (initial.run kindOf before).session.Overflows value

theorem NeverOverflows.of_prefix {initial : Dialogue} {before events : List Event}
    (never : NeverOverflows kindOf initial events) (isPrefix : before <+: events) :
    NeverOverflows kindOf initial before := by
  intro earlier value isEarlier
  exact never earlier value (isEarlier.trans isPrefix)

theorem neverOverflows_of_no_settings {initial : Dialogue} {events : List Event}
    (noSettings : ∀ value, .configured value ∉ events) :
    NeverOverflows kindOf initial events := by
  intro before value isPrefix
  exact absurd (isPrefix.subset (by simp)) (noSettings value)

theorem NeverOverflows.concat {initial : Dialogue} {events : List Event} {event : Event}
    (never : NeverOverflows kindOf initial events)
    (safe : ∀ value, event = .configured value →
      ¬ (initial.run kindOf events).session.Overflows value) :
    NeverOverflows kindOf initial (events ++ [event]) := by
  intro before value isPrefix
  rcases List.prefix_concat_iff.mp isPrefix with isWhole | isEarlier
  · obtain ⟨rfl, isLast⟩ := List.append_inj' isWhole rfl
    exact safe value (List.singleton_inj.mp isLast).symm
  · exact never before value isEarlier

/-! ### Where diagnostics come from -/

theorem mem_slot_send_singleton {dialogue : Dialogue} {command : Command} {uri : Uri} {kind : Kind}
    {diagnostic : Diagnostic} (isHeld : diagnostic ∈ (dialogue.send [command]).slot uri kind) :
    diagnostic ∈ dialogue.slot uri kind ∨ command.Shows uri kind diagnostic := by
  rw [slot_send_singleton] at isHeld
  cases command with
  | update file slot diagnostics =>
      rw [Board.applied, Store.slot_update] at isHeld
      split at isHeld
      next touched => exact .inr ⟨touched.1, touched.2, isHeld⟩
      next => exact .inl isHeld
  | replace slot results =>
      rw [Board.applied, Store.slot_replace] at isHeld
      split at isHeld
      next isKind => exact .inr ⟨isKind, isHeld⟩
      next => exact .inl isHeld
  | clearKind slot =>
      rw [Board.applied, Store.slot_clearKind] at isHeld
      split at isHeld
      · exact absurd isHeld (by simp)
      · exact .inl isHeld
  | delete file =>
      rw [Board.applied, Store.report_delete] at isHeld
      split at isHeld
      · rw [FileReport.slot_empty] at isHeld
        exact absurd isHeld (by simp)
      · exact .inl isHeld

theorem mem_slot_send {dialogue : Dialogue} {commands : List Command} {uri : Uri} {kind : Kind}
    {diagnostic : Diagnostic} (isHeld : diagnostic ∈ (dialogue.send commands).slot uri kind) :
    diagnostic ∈ dialogue.slot uri kind ∨
      ∃ command ∈ commands, command.Shows uri kind diagnostic := by
  induction commands generalizing dialogue with
  | nil => exact .inl isHeld
  | cons command rest inductionHypothesis =>
      rw [slot_send_cons] at isHeld
      rcases inductionHypothesis isHeld with wasHeld | ⟨later, isLater, shows⟩
      · rcases mem_slot_send_singleton wasHeld with wasHeld | shows
        · exact .inl wasHeld
        · exact .inr ⟨command, List.mem_cons_self .., shows⟩
      · exact .inr ⟨later, List.mem_cons_of_mem _ isLater, shows⟩

theorem mem_slot_send_reported {dialogue : Dialogue} {request : ProjectRequest}
    {answer : Except Failure ProjectResults} {uri : Uri} {kind : Kind} {diagnostic : Diagnostic}
    (isHeld : diagnostic ∈ (dialogue.send (reported kindOf request answer)).slot uri kind) :
    diagnostic ∈ dialogue.slot uri kind ∨ ∃ results, answer = .ok results ∧
      kindOf request.analyser = some kind ∧
        diagnostic ∈ ((results.get? uri).getD []).map request.graded := by
  cases itsKind : kindOf request.analyser with
  | none =>
      rw [reported, itsKind] at isHeld
      exact .inl isHeld
  | some slot =>
      cases answer with
      | error cause =>
          rw [reported, itsKind] at isHeld
          exact .inl isHeld
      | ok results =>
          rw [slot_send_reported dialogue itsKind] at isHeld
          split at isHeld
          next isKind => exact .inr ⟨results, rfl, congrArg some isKind.symm, isHeld⟩
          next => exact .inl isHeld

/-- The event makes the session lint the file, if it lints at all. -/
def Event.Lints : Event → Uri → Prop
  | .opened file, uri => uri = file
  | .changed file, uri => uri = file
  | .configured _, _ => True
  | _, _ => False

/-- The event brings the diagnostic, as a finding of the rules or in an answer that was waited
for. -/
inductive Brings (kindOf : ProjectAnalyser → Option Kind) (dialogue : Dialogue) :
    Event → Uri → Kind → Diagnostic → Prop where
  | lint {event : Event} {uri : Uri} {findings : List Diagnostic} {diagnostic : Diagnostic}
      (lints : event.Lints uri)
      (enabled : (sessionAfter dialogue.session event).settings.lintEnabled = true)
      (finds : (sessionAfter dialogue.session event).LintFinds uri findings)
      (isFinding : diagnostic ∈ findings) :
      Brings kindOf dialogue event uri .lint diagnostic
  | check {ticket : Nat} {check : FileCheck} {diagnostics : List Diagnostic}
      {diagnostic : Diagnostic} (waits : dialogue.checks.Waits ticket check)
      (isReported : diagnostic ∈ diagnostics) :
      Brings kindOf dialogue (.checkAnswered ticket (.ok diagnostics)) check.request.uri
        .typeInference diagnostic
  | run {ticket : Nat} {request : ProjectRequest} {results : ProjectResults} {uri : Uri}
      {kind : Kind} {diagnostic : Diagnostic} (waits : dialogue.runs.Waits ticket request)
      (itsKind : kindOf request.analyser = some kind)
      (isReported : diagnostic ∈ ((results.get? uri).getD []).map request.graded) :
      Brings kindOf dialogue (.runFinished ticket (.ok results)) uri kind diagnostic

theorem brings_of_showsLint {dialogue : Dialogue} {event : Event} {file uri : Uri}
    {command : Command} {kind : Kind} {diagnostic : Diagnostic} (lints : event.Lints file)
    (showsLint : (sessionAfter dialogue.session event).ShowsLint file command)
    (shows : command.Shows uri kind diagnostic) :
    Brings kindOf dialogue event uri kind diagnostic := by
  obtain ⟨enabled, findings, finds, rfl⟩ := showsLint
  obtain ⟨rfl, rfl, isFinding⟩ := shows
  exact .lint lints enabled finds isFinding

/-- What a file holds after a step it held before, or the step brought it. -/
theorem mem_slot_step {dialogue : Dialogue} {event : Event} {uri : Uri} {kind : Kind}
    {diagnostic : Diagnostic}
    (isHeld : diagnostic ∈ (dialogue.step kindOf event).slot uri kind) :
    diagnostic ∈ dialogue.slot uri kind ∨ Brings kindOf dialogue event uri kind diagnostic := by
  rw [slot_step] at isHeld
  by_cases wasHeld : diagnostic ∈ dialogue.slot uri kind
  · exact .inl wasHeld
  obtain ⟨command, isSent, shows⟩ := (mem_slot_send isHeld).resolve_left wasHeld
  right
  cases event with
  | opened file =>
      simp only [sent] at isSent
      split at isSent
      next commands request refreshed =>
        have showsLint := (Session.refresh_eq_ok refreshed).2.2 command isSent
        exact brings_of_showsLint rfl showsLint shows
      next => exact absurd isSent (by simp)
  | changed file =>
      simp only [sent] at isSent
      split at isSent
      next commands request edited =>
        have showsLint := (Session.changed_eq_ok edited).1 command isSent
        exact brings_of_showsLint rfl showsLint shows
      next => exact absurd isSent (by simp)
  | deleted file =>
      rw [List.mem_singleton.mp isSent] at shows
      exact absurd shows id
  | configured value =>
      rcases dialogue.session.configure_commands value command isSent with
        ⟨file, showsLint⟩ | rfl | rfl
      · have lints : Event.Lints (.configured value) file := trivial
        exact brings_of_showsLint lints showsLint shows
      · exact absurd shows id
      · exact absurd shows id
  | checkAnswered ticket answer =>
      simp only [sent] at isSent
      split at isSent
      next check later accepted =>
        cases answer with
        | error cause => exact absurd isSent (by simp [CheckRequest.answered])
        | ok diagnostics =>
            rw [List.mem_singleton.mp isSent] at shows
            obtain ⟨rfl, rfl, isReported⟩ := shows
            exact .check (Ledger.waits_of_answer accepted) isReported
      next => exact absurd isSent (by simp)
  | runFinished ticket answer =>
      -- the command has the findings with the severity of the request already
      simp only [sent] at isHeld
      split at isHeld
      next request later accepted =>
        obtain ⟨results, rfl, itsKind, isReported⟩ :=
          (mem_slot_send_reported isHeld).resolve_left wasHeld
        exact .run (Ledger.waits_of_answer accepted) itsKind isReported
      next => exact absurd isHeld wasHeld
  | _ => exact absurd isSent (by simp [sent])

theorem slot_step_deleted (dialogue : Dialogue) (uri : Uri) (kind : Kind) :
    (dialogue.step kindOf (.deleted uri)).slot uri kind = [] := by
  rw [slot_step, sent, Session.deleted, slot_send_singleton, Board.applied, Store.report_delete,
    if_pos rfl, FileReport.slot_empty]

/-! ### What the client is shown -/

theorem view_send_delete (dialogue : Dialogue) (file uri : Uri) :
    (dialogue.send [.delete file]).feed.view uri =
      if uri = file then [] else dialogue.feed.view uri := rfl

/-- Commands publish nothing, but for the empty list of a deleted file. -/
theorem mem_view_send {dialogue : Dialogue} {commands : List Command} {uri : Uri}
    {diagnostic : Diagnostic} (isShown : diagnostic ∈ (dialogue.send commands).feed.view uri) :
    diagnostic ∈ dialogue.feed.view uri := by
  induction commands generalizing dialogue with
  | nil => exact isShown
  | cons command rest inductionHypothesis =>
      have shownBefore : diagnostic ∈ (dialogue.send [command]).feed.view uri :=
        inductionHypothesis isShown
      by_cases isDelete : ∃ file, command = .delete file
      · obtain ⟨file, rfl⟩ := isDelete
        rw [view_send_delete] at shownBefore
        split at shownBefore
        · exact absurd shownBefore (by simp)
        · exact shownBefore
      · have publishesNothing := Board.handle_eq_requestAll dialogue.feed.board dialogue.now command
          (not_exists.mp isDelete)
        change diagnostic ∈
          (dialogue.feed.deliver (dialogue.feed.board.handle dialogue.now command)).view uri
            at shownBefore
        rw [publishesNothing] at shownBefore
        exact shownBefore

/-- What the client is shown after a step it was shown before, or the store held it. -/
theorem mem_view_step {dialogue : Dialogue} {event : Event} {uri : Uri} {diagnostic : Diagnostic}
    (isShown : diagnostic ∈ (dialogue.step kindOf event).feed.view uri) :
    diagnostic ∈ dialogue.feed.view uri ∨ diagnostic ∈ dialogue.feed.board.store.get uri := by
  by_cases isElapsed : ∃ file, event = .elapsed file
  · obtain ⟨file, rfl⟩ := isElapsed
    simp only [step, Feed.step] at isShown
    split at isShown
    next window _ =>
      change diagnostic ∈ dialogue.feed.view.receive
        (dialogue.feed.board.publish window.closes window.uri) uri at isShown
      rw [ClientView.receive] at isShown
      split at isShown
      next isFile =>
        rw [isFile]
        exact .inr isShown
      next => exact .inl isShown
    next => exact .inl isShown
  · rw [feed_step dialogue (not_exists.mp isElapsed)] at isShown
    exact .inl (mem_view_send isShown)

theorem view_step_deleted (dialogue : Dialogue) (uri : Uri) :
    (dialogue.step kindOf (.deleted uri)).feed.view uri = [] :=
  (view_send_delete dialogue uri uri).trans (if_pos rfl)

/-! ### What is asked -/

/-- A file check is asked for when its file is opened or edited, about the folder and the tree that
the file then has. -/
theorem checks_step (dialogue : Dialogue) {event : Event} {new : FileCheck → Prop}
    (allNew : ∀ check : FileCheck, event.Lints check.request.uri →
      dialogue.session.resolve check.request.uri = .ok (check.request.folder, check.request.tree) →
        new check) :
    dialogue.checks.Grew new (dialogue.step kindOf event).checks := by
  cases event with
  | opened file =>
      simp only [step]
      split
      next commands request refreshed =>
        obtain ⟨resolved, rfl, _⟩ := Session.refresh_eq_ok refreshed
        exact dialogue.checks.grew_ask (allNew ⟨request, true⟩ rfl resolved)
      next => exact .refl _
  | changed file =>
      simp only [step]
      split
      next commands request edited =>
        obtain ⟨resolved, rfl⟩ := (Session.changed_eq_ok edited).2 request rfl
        exact dialogue.checks.grew_ask (allNew ⟨request, false⟩ rfl resolved)
      next => exact .refl _
      next => exact .refl _
  | treeSet file tree =>
      simp only [step]
      split <;> exact .refl _
  | checkAnswered ticket answer =>
      simp only [step]
      split
      next check later accepted => exact Ledger.grew_of_answer accepted
      next => exact .refl _
  | runFinished ticket answer =>
      simp only [step]
      split <;> exact .refl _
  | _ => exact .refl _

/-- Project runs are asked for when a file check has been answered. -/
theorem runs_step (dialogue : Dialogue) {event : Event} {new : ProjectRequest → Prop}
    (allNew : ∀ check ∈ dialogue.checks.asked, ∀ request ∈ followUps kindOf dialogue.session check,
      new request) :
    dialogue.runs.Grew new (dialogue.step kindOf event).runs := by
  cases event with
  | opened file =>
      simp only [step]
      split <;> exact .refl _
  | changed file =>
      simp only [step]
      split <;> exact .refl _
  | treeSet file tree =>
      simp only [step]
      split <;> exact .refl _
  | checkAnswered ticket answer =>
      simp only [step]
      split
      next check later accepted =>
        exact dialogue.runs.grew_foldl_ask (allNew check (Ledger.mem_asked_of_answer accepted))
      next => exact .refl _
  | runFinished ticket answer =>
      simp only [step]
      split
      next request later accepted => exact Ledger.grew_of_answer accepted
      next => exact .refl _
  | _ => exact .refl _

end Dialogue

end ElmDiagnostics
