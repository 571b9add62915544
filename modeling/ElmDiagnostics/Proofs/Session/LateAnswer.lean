import ElmDiagnostics.Proofs.Session.Step

/-!
Contract: answers to questions that were asked before some point and come after it.

Owns: the diagnostics that such answers bring, and that a step adds to them only what was waited for
all along.

Does not own: which point is meant. That may be a change of settings or the deletion of a file.
-/

set_option autoImplicit false

namespace ElmDiagnostics.Dialogue

variable {kindOf : ProjectAnalyser → Option Kind} {earlier dialogue : Dialogue} {uri : Uri}
  {diagnostic : Diagnostic}

/-- A file check that waited at the earlier point has reported the diagnostic since. -/
def CheckedLate (earlier later : Dialogue) (uri : Uri) (diagnostic : Diagnostic) : Prop :=
  ∃ ticket check diagnostics, earlier.checks.Waits ticket check ∧ check.request.uri = uri ∧
    ⟨ticket, check, .ok diagnostics⟩ ∈ later.checks.completed ∧ diagnostic ∈ diagnostics

/-- A project run that waited at the earlier point has reported the diagnostic since. -/
def ReportedLate (kindOf : ProjectAnalyser → Option Kind) (earlier later : Dialogue) (uri : Uri)
    (kind : Kind) (diagnostic : Diagnostic) : Prop :=
  ∃ ticket request results, earlier.runs.Waits ticket request ∧
    kindOf request.analyser = some kind ∧
    ⟨ticket, request, .ok results⟩ ∈ later.runs.completed ∧
    diagnostic ∈ ((results.get? uri).getD []).map request.graded

/-! ### Late answers stay late -/

theorem CheckedLate.step (late : CheckedLate earlier dialogue uri diagnostic) (event : Event) :
    CheckedLate earlier (dialogue.step kindOf event) uri diagnostic := by
  obtain ⟨ticket, check, diagnostics, waited, isAbout, completed, isReported⟩ := late
  have grew : dialogue.checks.Grew (fun _ => True) (dialogue.step kindOf event).checks :=
    checks_step dialogue fun _ _ _ => trivial
  exact ⟨ticket, check, diagnostics, waited, isAbout, grew.completed.subset completed, isReported⟩

theorem ReportedLate.step {kind : Kind}
    (late : ReportedLate kindOf earlier dialogue uri kind diagnostic) (event : Event) :
    ReportedLate kindOf earlier (dialogue.step kindOf event) uri kind diagnostic := by
  obtain ⟨ticket, request, results, waited, itsKind, completed, isReported⟩ := late
  have grew : dialogue.runs.Grew (fun _ => True) (dialogue.step kindOf event).runs :=
    runs_step dialogue fun _ _ _ _ => trivial
  exact ⟨ticket, request, results, waited, itsKind, grew.completed.subset completed, isReported⟩

/-! ### New late answers -/

theorem checkedLate_of_answered {ticket : Nat} {check : FileCheck} {diagnostics : List Diagnostic}
    (waits : dialogue.checks.Waits ticket check) (waited : earlier.checks.Waits ticket check)
    (isReported : diagnostic ∈ diagnostics) :
    CheckedLate earlier (dialogue.step kindOf (.checkAnswered ticket (.ok diagnostics)))
      check.request.uri diagnostic := by
  obtain ⟨later, accepted⟩ := waits.exists_answer (.ok diagnostics)
  refine ⟨ticket, check, diagnostics, waited, rfl, ?_, isReported⟩
  simp only [Dialogue.step, accepted]
  exact Ledger.mem_completed_of_answer accepted

theorem reportedLate_of_finished {ticket : Nat} {request : ProjectRequest} {kind : Kind}
    {results : ProjectResults} (waits : dialogue.runs.Waits ticket request)
    (waited : earlier.runs.Waits ticket request) (itsKind : kindOf request.analyser = some kind)
    (isReported : diagnostic ∈ ((results.get? uri).getD []).map request.graded) :
    ReportedLate kindOf earlier (dialogue.step kindOf (.runFinished ticket (.ok results))) uri kind
      diagnostic := by
  obtain ⟨later, accepted⟩ := waits.exists_answer (.ok results)
  refine ⟨ticket, request, results, waited, itsKind, ?_, isReported⟩
  simp only [Dialogue.step, accepted]
  exact Ledger.mem_completed_of_answer accepted

end ElmDiagnostics.Dialogue
