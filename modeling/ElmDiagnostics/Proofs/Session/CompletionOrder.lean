import ElmDiagnostics.Proofs.Session.Step

/-!
Contract: answers take effect in the order they come, not in the order they were asked for.

Owns: that in every run of a dialogue the type errors of a file are those of the check that was
answered last, and the compiler's findings those of the run that finished last; and that an older
question which is answered late overwrites the answer to a newer one.

Does not own: lint results and the findings of the external linter, which settings clear.
-/

set_option autoImplicit false

namespace ElmDiagnostics.Dialogue

variable {kindOf : ProjectAnalyser → Option Kind}

/-! ### What came last -/

/-- The type errors that came last for the file; none before any came. -/
def lastChecked (checks : Ledger FileCheck (Except Failure (List Diagnostic))) (uri : Uri) :
    List Diagnostic :=
  ((checks.results (·.isAbout uri)).getLast?.map (·.2)).getD []

/-- What the compiler run that finished last says about the file. -/
def lastCompiled (runs : Ledger ProjectRequest (Except Failure ProjectResults)) (uri : Uri) :
    List Diagnostic :=
  ((runs.results (·.isFor .compiler)).getLast?.bind fun run => run.2.get? uri).getD []

section Ledgers

variable {checks laterChecks : Ledger FileCheck (Except Failure (List Diagnostic))}
  {runs laterRuns : Ledger ProjectRequest (Except Failure ProjectResults)}
  {ticket : Nat} {check : FileCheck} {request : ProjectRequest}

theorem lastChecked_of_ok {diagnostics : List Diagnostic}
    (accepted : checks.answer? ticket (.ok diagnostics) = some (check, laterChecks)) (uri : Uri) :
    lastChecked laterChecks uri =
      if uri = check.request.uri then diagnostics else lastChecked checks uri := by
  rw [lastChecked, Ledger.results_answer accepted, Completion.result?]
  by_cases isFile : uri = check.request.uri
  · simp [FileCheck.isAbout, isFile]
  · have notAbout : check.isAbout uri = false := decide_eq_false fun same => isFile same.symm
    simp [notAbout, isFile, lastChecked]

theorem lastChecked_of_error {cause : Failure}
    (accepted : checks.answer? ticket (.error cause) = some (check, laterChecks)) (uri : Uri) :
    lastChecked laterChecks uri = lastChecked checks uri := by
  rw [lastChecked, Ledger.results_answer accepted, Completion.result?, Option.toList_none,
    List.append_nil, lastChecked]

theorem lastCompiled_of_ok {results : ProjectResults}
    (accepted : runs.answer? ticket (.ok results) = some (request, laterRuns)) (uri : Uri) :
    lastCompiled laterRuns uri =
      if request.analyser = .compiler then (results.get? uri).getD [] else lastCompiled runs uri := by
  rw [lastCompiled, Ledger.results_answer accepted, Completion.result?]
  by_cases isCompiler : request.analyser = .compiler
  · simp [ProjectRequest.isFor, isCompiler]
  · simp [ProjectRequest.isFor, isCompiler, lastCompiled]

theorem lastCompiled_of_error {cause : Failure}
    (accepted : runs.answer? ticket (.error cause) = some (request, laterRuns)) (uri : Uri) :
    lastCompiled laterRuns uri = lastCompiled runs uri := by
  rw [lastCompiled, Ledger.results_answer accepted, Completion.result?, Option.toList_none,
    List.append_nil, lastCompiled]

theorem lastCompiled_of_not_compiler {answer : Except Failure ProjectResults}
    (accepted : runs.answer? ticket answer = some (request, laterRuns))
    (notCompiler : request.analyser ≠ .compiler) (uri : Uri) :
    lastCompiled laterRuns uri = lastCompiled runs uri := by
  cases answer with
  | error cause => exact lastCompiled_of_error accepted uri
  | ok results => rw [lastCompiled_of_ok accepted, if_neg notCompiler]

theorem lastCompiled_foldl_ask (requests : List ProjectRequest) (uri : Uri) :
    lastCompiled (requests.foldl Ledger.ask runs) uri = lastCompiled runs uri := by
  rw [lastCompiled, Ledger.results, Ledger.completed_foldl_ask]
  rfl

end Ledgers

/-- The slots of the type checker and of the compiler hold what came last. The compiler's findings
are shown with the severity that it gave them. -/
structure HoldsLast (dialogue : Dialogue) (uri : Uri) : Prop where
  typeErrors : dialogue.slot uri .typeInference = lastChecked dialogue.checks uri
  compiled : dialogue.slot uri .compile = lastCompiled dialogue.runs uri
  keepsSeverity : ∀ request ∈ dialogue.runs.asked, request.analyser = .compiler →
    request.severity = none

theorem start_holdsLast (session : Session) (window : Nat) (uri : Uri) :
    (start session window).HoldsLast uri :=
  ⟨rfl, rfl, by simp [start, Ledger.empty]⟩

/-! ### Steps that bring no answer -/

/-- Commands for other kinds change nothing that matters here. -/
theorem HoldsLast.send {dialogue : Dialogue} {uri : Uri} (holds : dialogue.HoldsLast uri)
    {commands : List Command}
    (untouched : ∀ command ∈ commands, ∀ kind, command.Touches uri kind →
      kind = .lint ∨ kind = .externalLint) :
    (dialogue.send commands).HoldsLast uri := by
  refine ⟨?_, ?_, holds.keepsSeverity⟩
  · rw [slot_send_of_untouched]
    · exact holds.typeErrors
    · intro command isCommand touches
      have otherKind := untouched command isCommand _ touches
      simp at otherKind
  · rw [slot_send_of_untouched]
    · exact holds.compiled
    · intro command isCommand touches
      have otherKind := untouched command isCommand _ touches
      simp at otherKind

/-- Linting touches the lint slot only. -/
theorem HoldsLast.sendLint {dialogue : Dialogue} {uri file : Uri} (holds : dialogue.HoldsLast uri)
    {commands : List Command}
    (lints : ∀ command ∈ commands, ∃ diagnostics, command = .update file .lint diagnostics) :
    (dialogue.send commands).HoldsLast uri := by
  apply holds.send
  intro command isCommand kind touches
  obtain ⟨diagnostics, rfl⟩ := lints command isCommand
  exact .inl touches.2

theorem HoldsLast.ask {dialogue : Dialogue} {uri : Uri} (holds : dialogue.HoldsLast uri)
    (check : FileCheck) :
    HoldsLast { dialogue with checks := dialogue.checks.ask check } uri :=
  ⟨holds.typeErrors, holds.compiled, holds.keepsSeverity⟩

theorem HoldsLast.configured {dialogue : Dialogue} {uri : Uri} (holds : dialogue.HoldsLast uri)
    (value : Json) : (dialogue.step kindOf (.configured value)).HoldsLast uri := by
  have sent : (dialogue.send (dialogue.session.configure value).2.commands).HoldsLast uri := by
    apply holds.send
    intro command isCommand kind touches
    rcases dialogue.session.configure_commands value command isCommand with
      ⟨file, _, diagnostics, _, rfl⟩ | rfl | rfl
    · exact .inl touches.2
    · exact .inl touches
    · exact .inr touches
  exact ⟨sent.typeErrors, sent.compiled, sent.keepsSeverity⟩

/-! ### Answers -/

theorem severity_of_compiler {session : Session} {trigger : Uri} {folder : Folder}
    {request : ProjectRequest} (isRequest : request ∈ session.projectRequests trigger folder)
    (isCompiler : request.analyser = .compiler) : request.severity = none := by
  unfold Session.projectRequests at isRequest
  split at isRequest
  · rcases List.mem_cons.mp isRequest with rfl | isLinter
    · rfl
    · rw [List.mem_singleton.mp isLinter] at isCompiler
      exact absurd isCompiler (by simp)
  · rw [List.mem_singleton.mp isRequest]

theorem severity_of_followUp {session : Session} {check : FileCheck} {request : ProjectRequest}
    (isRequest : request ∈ followUps kindOf session check)
    (isCompiler : request.analyser = .compiler) : request.severity = none := by
  unfold followUps at isRequest
  split at isRequest
  · exact severity_of_compiler (List.mem_filter.mp isRequest).1 isCompiler
  · exact absurd isRequest (by simp)

theorem HoldsLast.checkAnswered {dialogue : Dialogue} {uri : Uri} (holds : dialogue.HoldsLast uri)
    {ticket : Nat} {answer : Except Failure (List Diagnostic)} {check : FileCheck}
    {checks : Ledger FileCheck (Except Failure (List Diagnostic))}
    (accepted : dialogue.checks.answer? ticket answer = some (check, checks)) :
    HoldsLast { dialogue.send (check.request.answered answer) with
      checks
      runs := (followUps kindOf dialogue.session check).foldl Ledger.ask dialogue.runs } uri := by
  refine ⟨?_, ?_, ?_⟩
  · change (dialogue.send (check.request.answered answer)).slot uri .typeInference = _
    cases answer with
    | error cause =>
        rw [lastChecked_of_error accepted]
        exact holds.typeErrors
    | ok diagnostics =>
        rw [lastChecked_of_ok accepted, ← holds.typeErrors, CheckRequest.answered,
          slot_send_singleton, Board.applied, Store.slot_update]
        simp only [and_true]
        rfl
  · change (dialogue.send (check.request.answered answer)).slot uri .compile = _
    rw [lastCompiled_foldl_ask, ← holds.compiled, slot_send_of_untouched]
    intro command isCommand touches
    cases answer with
    | error cause => exact absurd isCommand (by simp [CheckRequest.answered])
    | ok diagnostics =>
        rw [List.mem_singleton.mp isCommand] at touches
        exact absurd touches.2 (by decide)
  · intro request isAsked isCompiler
    rw [Ledger.asked_foldl_ask] at isAsked
    rcases List.mem_append.mp isAsked with wasAsked | isFollowUp
    · exact holds.keepsSeverity request wasAsked isCompiler
    · exact severity_of_followUp isFollowUp isCompiler

theorem slot_send_answered_of_ne (dialogue : Dialogue) (request : ProjectRequest) {kind slot : Kind}
    (answer : Except Failure ProjectResults) (uri : Uri) (different : slot ≠ kind) :
    (dialogue.send (request.answered kind answer)).slot uri slot = dialogue.slot uri slot := by
  apply slot_send_of_untouched
  intro command isCommand touches
  unfold ProjectRequest.answered at isCommand
  split at isCommand
  · split at isCommand <;>
    · rw [List.mem_singleton.mp isCommand] at touches
      exact different touches
  · exact absurd isCommand (by simp)

theorem HoldsLast.compilerFinished {dialogue : Dialogue} {uri : Uri}
    (holds : dialogue.HoldsLast uri) {ticket : Nat} {answer : Except Failure ProjectResults}
    {request : ProjectRequest} {runs : Ledger ProjectRequest (Except Failure ProjectResults)}
    (accepted : dialogue.runs.answer? ticket answer = some (request, runs))
    (isCompiler : request.analyser = .compiler) :
    HoldsLast { dialogue.send (request.answered .compile answer) with runs } uri := by
  have noSeverity := holds.keepsSeverity request (Ledger.mem_asked_of_answer accepted) isCompiler
  refine ⟨?_, ?_, ?_⟩
  · exact (dialogue.slot_send_answered_of_ne request answer uri (by decide)).trans holds.typeErrors
  · change (dialogue.send (request.answered .compile answer)).slot uri .compile = _
    cases answer with
    | error cause =>
        rw [lastCompiled_of_error accepted]
        exact holds.compiled
    | ok results =>
        rw [lastCompiled_of_ok accepted, if_pos isCompiler, slot_send_answered, if_pos rfl,
          ProjectRequest.graded_of_none noSeverity, List.map_id]
  · rw [(Ledger.answer?_eq_some accepted).1]
    exact holds.keepsSeverity

theorem HoldsLast.linterFinished {dialogue : Dialogue} {uri : Uri} {kind : Kind}
    (holds : dialogue.HoldsLast uri) (otherKind : kind ≠ .compile ∧ kind ≠ .typeInference)
    {ticket : Nat} {answer : Except Failure ProjectResults} {request : ProjectRequest}
    {runs : Ledger ProjectRequest (Except Failure ProjectResults)}
    (accepted : dialogue.runs.answer? ticket answer = some (request, runs))
    (notCompiler : request.analyser ≠ .compiler) :
    HoldsLast { dialogue.send (request.answered kind answer) with runs } uri := by
  refine ⟨?_, ?_, ?_⟩
  · exact (dialogue.slot_send_answered_of_ne request answer uri otherKind.2.symm).trans
      holds.typeErrors
  · rw [lastCompiled_of_not_compiler accepted notCompiler, ← holds.compiled]
    exact dialogue.slot_send_answered_of_ne request answer uri otherKind.1.symm
  · rw [(Ledger.answer?_eq_some accepted).1]
    exact holds.keepsSeverity

/-! ### Whole runs -/

/-- The compiler reports compile errors, and the external linter neither these nor type errors. -/
structure OwnKinds (kindOf : ProjectAnalyser → Option Kind) : Prop where
  compiler : kindOf .compiler = some .compile
  externalLinter : ∀ kind, kindOf .externalLinter = some kind →
    kind ≠ .compile ∧ kind ≠ .typeInference

theorem HoldsLast.runFinished (ownKinds : OwnKinds kindOf) {dialogue : Dialogue} {uri : Uri}
    (holds : dialogue.HoldsLast uri) {ticket : Nat} {answer : Except Failure ProjectResults}
    {request : ProjectRequest} {runs : Ledger ProjectRequest (Except Failure ProjectResults)}
    (accepted : dialogue.runs.answer? ticket answer = some (request, runs)) :
    HoldsLast { dialogue.send (reported kindOf request answer) with runs } uri := by
  unfold reported
  cases analyser : request.analyser with
  | compiler =>
      rw [ownKinds.compiler]
      exact holds.compilerFinished accepted analyser
  | externalLinter =>
      have notCompiler : request.analyser ≠ .compiler := by
        rw [analyser]
        decide
      cases kindFound : kindOf .externalLinter with
      | some kind =>
          have otherKind := ownKinds.externalLinter kind kindFound
          exact holds.linterFinished otherKind accepted notCompiler
      | none =>
          refine ⟨holds.typeErrors, holds.compiled.trans ?_, ?_⟩
          · exact (lastCompiled_of_not_compiler accepted notCompiler uri).symm
          · rw [(Ledger.answer?_eq_some accepted).1]
            exact holds.keepsSeverity

theorem HoldsLast.step (ownKinds : OwnKinds kindOf) {dialogue : Dialogue} {uri : Uri}
    (holds : dialogue.HoldsLast uri) {event : Event} (notDeleted : event ≠ .deleted uri) :
    (dialogue.step kindOf event).HoldsLast uri := by
  have same : ∀ {session : Session} {now : Nat},
      HoldsLast { dialogue with session, now } uri :=
    ⟨holds.typeErrors, holds.compiled, holds.keepsSeverity⟩
  cases event with
  | opened file =>
      simp only [Dialogue.step]
      split
      · next commands request refreshed =>
          exact (holds.sendLint (Session.refresh_commands refreshed)).ask _
      · exact holds
  | changed file =>
      simp only [Dialogue.step]
      split
      · next commands request edited =>
          exact (holds.sendLint (Session.changed_commands edited)).ask _
      · next commands edited => exact holds.sendLint (Session.changed_commands edited)
      · exact holds
  | deleted file =>
      refine holds.send fun command isCommand kind touches => ?_
      rw [List.mem_singleton.mp isCommand] at touches
      exact absurd (congrArg Event.deleted touches.symm) notDeleted
  | configured value => exact holds.configured value
  | folderAdded root => exact same
  | treeSet file tree =>
      simp only [Dialogue.step]
      split
      · exact same
      · exact holds
  | treeRemoved file => exact same
  | checkAnswered ticket answer =>
      simp only [Dialogue.step]
      split
      · next check checks accepted => exact holds.checkAnswered accepted
      · exact holds
  | runFinished ticket answer =>
      simp only [Dialogue.step]
      split
      · next request runs accepted => exact holds.runFinished ownKinds accepted
      · exact holds
  | clock now => exact same
  | elapsed file =>
      refine ⟨?_, ?_, holds.keepsSeverity⟩
      · exact (dialogue.slot_elapse file uri _).trans holds.typeErrors
      · exact (dialogue.slot_elapse file uri _).trans holds.compiled

theorem HoldsLast.run (ownKinds : OwnKinds kindOf) {dialogue : Dialogue} {uri : Uri}
    (holds : dialogue.HoldsLast uri) {events : List Event} (notDeleted : .deleted uri ∉ events) :
    (dialogue.run kindOf events).HoldsLast uri := by
  induction events generalizing dialogue with
  | nil => exact holds
  | cons event rest inductionHypothesis =>
      rw [List.mem_cons, not_or] at notDeleted
      have notNow : event ≠ .deleted uri := fun same => notDeleted.1 same.symm
      exact inductionHypothesis (holds.step ownKinds notNow) notDeleted.2

/-- In every run, whatever the order of answers, the type errors of a file that is not deleted are
those of its check that was answered last, and its compile errors those of the compiler run that
finished last. They are those of the check and run that were asked for last if the results came in
the order of the questions. -/
theorem slots_follow_completion_order (ownKinds : OwnKinds kindOf) (session : Session)
    (window : Nat) (events : List Event) (uri : Uri) (notDeleted : .deleted uri ∉ events) :
    let reached := (start session window).run kindOf events
    let checked := reached.checks.results (·.isAbout uri)
    let compiled := reached.runs.results (·.isFor .compiler)
    reached.slot uri .typeInference = (checked.getLast?.map (·.2)).getD [] ∧
    reached.slot uri .compile = (compiled.getLast?.bind fun run => run.2.get? uri).getD [] ∧
    (checked.Pairwise (fun earlier later => earlier.1 < later.1) →
      ∀ ticket diagnostics, reached.checks.IsLatest (·.isAbout uri) ticket →
        (ticket, diagnostics) ∈ checked → reached.slot uri .typeInference = diagnostics) ∧
    (compiled.Pairwise (fun earlier later => earlier.1 < later.1) →
      ∀ ticket results, reached.runs.IsLatest (·.isFor .compiler) ticket →
        (ticket, results) ∈ compiled → reached.slot uri .compile = (results.get? uri).getD []) := by
  intro reached checked compiled
  have holds : reached.HoldsLast uri := (start_holdsLast session window uri).run ownKinds notDeleted
  refine ⟨holds.typeErrors, holds.compiled, ?_, ?_⟩
  · intro inOrder ticket diagnostics latest completed
    rw [holds.typeErrors, lastChecked, Ledger.getLast?_results_of_inOrder inOrder latest completed]
    rfl
  · intro inOrder ticket results latest completed
    rw [holds.compiled, lastCompiled, Ledger.getLast?_results_of_inOrder inOrder latest completed]
    rfl

/-! ### Two saves at once -/

def usualKinds : ProjectAnalyser → Option Kind
  | .compiler => some .compile
  | .externalLinter => some .externalLint

theorem usualKinds_own : OwnKinds usualKinds where
  compiler := rfl
  externalLinter := by
    intro kind isKind
    cases isKind
    decide

def savedFile : Uri := ⟨"file:///project/Main.elm"⟩

/-- A session with one file and without lint rules. -/
def savingSession : Session where
  workspaces := ⟨[(Folder.new "/project").insert savedFile ⟨none, [], [], default⟩]⟩
  settings := { rulesOff := true }
  rules := .full

/-- What an analyser finds when asked for the first time, and when asked again. -/
def finding (ticket : Nat) : Diagnostic :=
  .new "TYPE MISMATCH" (if ticket = 0 then "before the edit" else "after the edit") .error default

/-- The file is saved twice before any answer comes. Answers come in the given order. -/
def savedTwice (first second : Nat) : List Event :=
  [.opened savedFile, .opened savedFile,
    .checkAnswered first (.ok [finding first]), .checkAnswered second (.ok [finding second]),
    .runFinished first (.ok (.ofList [(savedFile, [finding first])])),
    .runFinished second (.ok (.ofList [(savedFile, [finding second])]))]

/-- Two questions about one thing, both answered. -/
theorem settled_of_two {Question Answer : Type} (ledger : Ledger Question Answer)
    (about : Question → Bool) {earlier later : Question} {first second : Nat}
    (asked : ledger.asked = [earlier, later]) (isAbout : about later = true)
    (tickets : ledger.completed.map (·.ticket) = [first, second])
    (bothOrders : first = 0 ∧ second = 1 ∨ first = 1 ∧ second = 0) :
    ledger.Settled ∧ ledger.IsLatest about 1 := by
  refine ⟨?_, ⟨later, by rw [asked]; rfl, isAbout⟩, ?_⟩
  · intro ticket isTicket
    rw [asked] at isTicket
    rw [tickets, List.mem_cons, List.mem_singleton]
    simp only [List.length_cons, List.length_nil] at isTicket
    omega
  · intro ticket question isAsked _
    have isTicket := (List.getElem?_eq_some_iff.mp isAsked).1
    rw [asked] at isTicket
    simp only [List.length_cons, List.length_nil] at isTicket
    omega

theorem slots_hold_latest_in_order :
    OwnKinds usualKinds ∧ .deleted savedFile ∉ savedTwice 0 1 ∧
      let reached := (start savingSession 50).run usualKinds (savedTwice 0 1)
      reached.slot savedFile .typeInference = [finding 1] ∧
        reached.slot savedFile .compile = [finding 1] := by
  have notDeleted : .deleted savedFile ∉ savedTwice 0 1 := by simp [savedTwice]
  refine ⟨usualKinds_own, notDeleted, ?_⟩
  intro reached
  obtain ⟨_, _, checkedInOrder, compiledInOrder⟩ :=
    slots_follow_completion_order usualKinds_own savingSession 50 (savedTwice 0 1) savedFile
      notDeleted
  have checked : reached.checks.results (·.isAbout savedFile) =
      [(0, [finding 0]), (1, [finding 1])] := rfl
  have compiled : reached.runs.results (·.isFor .compiler) =
      [(0, .ofList [(savedFile, [finding 0])]), (1, .ofList [(savedFile, [finding 1])])] := rfl
  have checksLatest :=
    (settled_of_two reached.checks (·.isAbout savedFile) rfl rfl rfl (.inl ⟨rfl, rfl⟩)).2
  have runsLatest :=
    (settled_of_two reached.runs (·.isFor .compiler) rfl rfl rfl (.inl ⟨rfl, rfl⟩)).2
  constructor
  · refine checkedInOrder ?_ 1 [finding 1] checksLatest ?_
    · change (reached.checks.results (·.isAbout savedFile)).Pairwise _
      rw [checked]
      simp
    · change (1, [finding 1]) ∈ reached.checks.results (·.isAbout savedFile)
      rw [checked]
      simp
  · refine compiledInOrder ?_ 1 (.ofList [(savedFile, [finding 1])]) runsLatest ?_
    · change (reached.runs.results (·.isFor .compiler)).Pairwise _
      rw [compiled]
      simp
    · change (1, _) ∈ reached.runs.results (·.isFor .compiler)
      rw [compiled]
      simp

/-- A check and a compiler run that were overtaken bring their old findings back. -/
theorem late_answers_overwrite_newer :
    let reached := (start savingSession 50).run usualKinds (savedTwice 1 0)
    (reached.checks.Settled ∧ reached.checks.IsLatest (·.isAbout savedFile) 1 ∧
      reached.checks.results (·.isAbout savedFile) = [(1, [finding 1]), (0, [finding 0])] ∧
      reached.slot savedFile .typeInference ≠ [finding 1]) ∧
    (reached.runs.Settled ∧ reached.runs.IsLatest (·.isFor .compiler) 1 ∧
      reached.runs.results (·.isFor .compiler) =
        [(1, .ofList [(savedFile, [finding 1])]), (0, .ofList [(savedFile, [finding 0])])] ∧
      reached.slot savedFile .compile ≠ [finding 1]) := by
  intro reached
  have different : [finding 0] ≠ [finding 1] := by simp [finding, Diagnostic.new]
  have notDeleted : .deleted savedFile ∉ savedTwice 1 0 := by simp [savedTwice]
  have holds : reached.HoldsLast savedFile :=
    (start_holdsLast savingSession 50 savedFile).run usualKinds_own notDeleted
  obtain ⟨checksSettled, checksLatest⟩ :=
    settled_of_two reached.checks (·.isAbout savedFile) rfl rfl rfl (.inr ⟨rfl, rfl⟩)
  obtain ⟨runsSettled, runsLatest⟩ :=
    settled_of_two reached.runs (·.isFor .compiler) rfl rfl rfl (.inr ⟨rfl, rfl⟩)
  refine ⟨⟨checksSettled, checksLatest, rfl, ?_⟩, runsSettled, runsLatest, rfl, ?_⟩
  · rw [holds.typeErrors]
    exact different
  · rw [holds.compiled]
    exact different

end ElmDiagnostics.Dialogue
