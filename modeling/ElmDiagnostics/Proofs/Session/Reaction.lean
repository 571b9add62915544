import ElmDiagnostics.Proofs.Session.Step

/-!
Contract: a call of the client that is turned down has done nothing.

Owns: `Reaction`, what is done for a call, one effect after the other, where nothing that was done
before a failure is taken back; and how a call can end: with the step of the dialogue taken, or
turned down before its first effect, or by an overflow, which ends a lint run wherever it stands.
The step of the dialogue is what was done in each of these cases.
-/

set_option autoImplicit false

namespace ElmDiagnostics

/-- The call is turned down: its file has no folder or no tree, or its settings cannot be read. -/
def Failure.TurnsDown : Failure → Prop
  | .noWorkspace _ => True
  | .missingTree _ => True
  | .settings _ => True
  | .analyser _ _ => False
  | .coordinate _ => False

namespace Session

theorem resolve_turnsDown {session : Session} {uri : Uri} {failure : Failure}
    (failed : session.resolve uri = .error failure) : failure.TurnsDown := by
  unfold resolve at failed
  cases owned : session.workspaces.owner? uri with
  | none =>
      simp only [Workspaces.folderOf, owned] at failed
      obtain rfl := Except.error.inj failed
      trivial
  | some owner =>
      simp only [Workspaces.folderOf, owned, bind, Except.bind] at failed
      split at failed
      next => exact absurd failed (by simp [pure, Except.pure])
      next =>
        obtain rfl := Except.error.inj failed
        trivial

theorem refresh_eq_error {session : Session} {uri : Uri} {failure : Failure}
    (failed : session.refresh uri = .error failure) :
    failure.TurnsDown ∨ ∃ cause, failure = .coordinate cause := by
  unfold refresh at failed
  cases resolved : session.resolve uri with
  | error cause =>
      rw [resolved] at failed
      obtain rfl := Except.error.inj failed
      exact .inl (resolve_turnsDown resolved)
  | ok found =>
      simp only [resolved, bind, Except.bind] at failed
      cases linted : session.lint uri found.1 found.2 with
      | error cause =>
          rw [linted] at failed
          obtain rfl := Except.error.inj failed
          exact .inr (lint_eq_error linted)
      | ok commands =>
          rw [linted] at failed
          exact absurd failed (by simp [pure, Except.pure])

theorem changed_eq_error {session : Session} {uri : Uri} {failure : Failure}
    (failed : session.changed uri = .error failure) : session.refresh uri = .error failure := by
  unfold changed at failed
  split at failed
  · exact absurd failed (by simp)
  · cases refreshed : session.refresh uri with
    | error cause =>
        rw [refreshed] at failed
        exact congrArg _ (Except.error.inj failed)
    | ok found =>
        rw [refreshed] at failed
        exact absurd failed (by simp [bind, Except.bind, pure, Except.pure])

end Session

namespace Dialogue

/-! ### Effects, one after the other -/

/-- Effects on a dialogue. What was done before a failure stays done. -/
abbrev Reaction (α : Type) := EStateM Failure Dialogue α

namespace Reaction

def tell (commands : List Command) : Reaction Unit :=
  modify fun dialogue => dialogue.send commands

def ask (check : FileCheck) : Reaction Unit :=
  modify fun dialogue => { dialogue with checks := dialogue.checks.ask check }

def lint (uri : Uri) (folder : Folder) (tree : Module) : Reaction Unit := do
  let dialogue ← get
  let commands ← MonadExcept.ofExcept (dialogue.session.lint uri folder tree)
  tell commands

/-- Lint results are sent before the type checker is asked. -/
def refresh (uri : Uri) (startsRuns : Bool) : Reaction Unit := do
  let dialogue ← get
  let (folder, tree) ← MonadExcept.ofExcept (dialogue.session.resolve uri)
  lint uri folder tree
  ask ⟨{ uri, tree, folder }, startsRuns⟩

def changed (uri : Uri) : Reaction Unit := do
  let dialogue ← get
  if dialogue.session.settings.onlyOnSave then pure () else refresh uri false

/-- Lints file by file. Files without a folder or a tree are skipped. -/
def lintEach : List Uri → Reaction Unit
  | [] => pure ()
  | uri :: rest => do
      let dialogue ← get
      match dialogue.session.resolve uri with
      | .ok (folder, tree) => lint uri folder tree
      | .error _ => pure ()
      lintEach rest

/-- What lint results need under new settings that are in force already. -/
def followSettings (previous current : Settings) : Reaction Unit := do
  let dialogue ← get
  if current.lintEnabled then
    if Session.needsLint previous current then
      lintEach dialogue.session.workspaces.trackedFiles
    else pure ()
  else tell (if previous.lintEnabled then [.clearKind .lint] else [])

/-- Settings and rules are replaced first, then results follow. -/
def configure (value : Json) : Reaction Unit := do
  let settings ← MonadExcept.ofExcept ((Settings.read value).mapError Failure.settings)
  let dialogue ← get
  set { dialogue with session := dialogue.session.withSettings settings }
  followSettings dialogue.session.settings settings
  tell (Session.externalCommands dialogue.session.settings settings)

end Reaction

/-- What a client can call for. -/
inductive Call where
  | opened (uri : Uri)
  | saved (uri : Uri)
  | changed (uri : Uri)
  | configured (value : Json)

namespace Call

def event : Call → Event
  | .opened uri => .opened uri
  | .saved uri => .opened uri
  | .changed uri => .changed uri
  | .configured value => .configured value

def reaction : Call → Reaction Unit
  | .opened uri => .refresh uri true
  | .saved uri => .refresh uri true
  | .changed uri => .changed uri
  | .configured value => .configure value

end Call

/-! ### What the effects come to -/

/-- How effects end that should lead from one dialogue to another: there, or turned down with
nothing done, or there with an overflow. -/
inductive Ends (before after : Dialogue) : EStateM.Result Failure Dialogue Unit → Prop where
  | done : Ends before after (.ok () after)
  | turnedDown {failure : Failure} (turnsDown : failure.TurnsDown) (nothingDone : after = before) :
      Ends before after (.error failure before)
  | overflow (cause : CoordinateError) : Ends before after (.error (.coordinate cause) after)

/-- Where effects lead that were worked out beforehand. -/
def reacted (dialogue : Dialogue) (effects : Effects) : EStateM.Result Failure Dialogue Unit :=
  match effects.failure? with
  | none => .ok () (dialogue.send effects.commands)
  | some failure => .error failure (dialogue.send effects.commands)

namespace Reaction

theorem run_bind {α β : Type} (first : Reaction α) (next : α → Reaction β) (dialogue : Dialogue) :
    (first >>= next).run dialogue =
      match first.run dialogue with
      | .ok value reached => (next value).run reached
      | .error failure reached => .error failure reached := by
  simp only [bind, EStateM.bind, EStateM.run]
  cases first dialogue <;> rfl

theorem run_get (dialogue : Dialogue) :
    (get : Reaction Dialogue).run dialogue = .ok dialogue dialogue := rfl

theorem run_ofExcept {α : Type} (result : Except Failure α) (dialogue : Dialogue) :
    (MonadExcept.ofExcept result : Reaction α).run dialogue =
      match result with
      | .ok value => .ok value dialogue
      | .error failure => .error failure dialogue := by
  cases result <;> rfl

theorem run_lint (dialogue : Dialogue) (uri : Uri) (folder : Folder) (tree : Module) :
    (lint uri folder tree).run dialogue =
      match dialogue.session.lint uri folder tree with
      | .ok commands => .ok () (dialogue.send commands)
      | .error failure => .error failure dialogue := by
  simp only [lint, run_bind, run_get, run_ofExcept]
  cases dialogue.session.lint uri folder tree <;> rfl

theorem run_refresh (dialogue : Dialogue) (uri : Uri) (startsRuns : Bool) :
    (refresh uri startsRuns).run dialogue =
      match dialogue.session.refresh uri with
      | .ok (commands, request) =>
          .ok () { dialogue.send commands with checks := dialogue.checks.ask ⟨request, startsRuns⟩ }
      | .error failure => .error failure dialogue := by
  simp only [refresh, run_bind, run_get, run_ofExcept, Session.refresh]
  cases dialogue.session.resolve uri with
  | error failure => rfl
  | ok found =>
      simp only [run_lint, bind, Except.bind]
      cases dialogue.session.lint uri found.1 found.2 <;> rfl

theorem run_changed (dialogue : Dialogue) (uri : Uri) :
    (changed uri).run dialogue =
      match dialogue.session.changed uri with
      | .ok (commands, some request) =>
          .ok () { dialogue.send commands with checks := dialogue.checks.ask ⟨request, false⟩ }
      | .ok (commands, none) => .ok () (dialogue.send commands)
      | .error failure => .error failure dialogue := by
  simp only [changed, run_bind, run_get, Session.changed]
  cases dialogue.session.settings.onlyOnSave with
  | true => rfl
  | false =>
      simp only [Bool.false_eq_true, if_false, run_refresh]
      cases dialogue.session.refresh uri <;> rfl

theorem run_lint_bind (dialogue : Dialogue) (uri : Uri) (folder : Folder) (tree : Module)
    {next : Reaction Unit} {effects : Effects}
    (nextRuns : ∀ commands, next.run (dialogue.send commands) =
      (dialogue.send commands).reacted effects) :
    (lint uri folder tree >>= fun _ => next).run dialogue =
      dialogue.reacted
        ((Effects.ofExcept (dialogue.session.lint uri folder tree)).andThen effects) := by
  rw [run_bind, run_lint]
  cases dialogue.session.lint uri folder tree with
  | error failure => rfl
  | ok commands =>
      rw [Effects.ofExcept, Effects.andThen_of_done rfl]
      simp only [nextRuns, reacted, Effects.commands_done, send_append]

/-- Linting file by file does what was worked out for all of them. -/
theorem run_lintEach (dialogue : Dialogue) (uris : List Uri) :
    (lintEach uris).run dialogue = dialogue.reacted (dialogue.session.lintTracked uris) := by
  induction uris generalizing dialogue with
  | nil => rfl
  | cons uri rest inductionHypothesis =>
      simp only [lintEach, run_bind, run_get]
      cases resolved : dialogue.session.resolve uri with
      | error failure =>
          rw [Session.lintTracked_of_unresolved resolved]
          exact inductionHypothesis dialogue
      | ok found =>
          rw [Session.lintTracked_of_resolve resolved]
          -- the board has heard of the first file, the session is the same
          exact run_lint_bind dialogue uri found.1 found.2 fun commands =>
            inductionHypothesis (dialogue.send commands)

theorem run_followSettings (dialogue : Dialogue) (previous : Settings) :
    (followSettings previous dialogue.session.settings).run dialogue =
      dialogue.reacted (dialogue.session.followSettings previous) := by
  simp only [followSettings, run_bind, run_get, Session.followSettings]
  split
  · split
    · exact run_lintEach dialogue _
    · rfl
  · rfl

variable (kindOf : ProjectAnalyser → Option Kind)

theorem run_configure_of_read (dialogue : Dialogue) {value : Json} {settings : Settings}
    (read : Settings.read value = .ok settings) :
    (configure value).run dialogue =
      reacted { dialogue with session := (dialogue.session.configure value).1 }
        (dialogue.session.configure value).2 := by
  let configured : Dialogue := { dialogue with session := dialogue.session.withSettings settings }
  have replaced : (configure value).run dialogue =
      (do followSettings dialogue.session.settings settings
          tell (Session.externalCommands dialogue.session.settings settings) :
        Reaction Unit).run configured := by
    simp only [configure, run_bind, run_ofExcept, read]
    rfl
  have followed : (followSettings dialogue.session.settings settings).run configured =
      configured.reacted ((dialogue.session.withSettings settings).followSettings
        dialogue.session.settings) := run_followSettings configured dialogue.session.settings
  rw [replaced, run_bind, followed, Session.configure_of_read read]
  generalize (dialogue.session.withSettings settings).followSettings dialogue.session.settings =
    effects
  obtain ⟨commands, failure?⟩ := effects
  cases failure? with
  | some failure => rfl
  | none =>
      rw [Effects.andThen_of_done rfl]
      simp only [reacted, Effects.done, send_append]
      rfl

theorem configure_ends (dialogue : Dialogue) (value : Json) :
    Ends dialogue (dialogue.step kindOf (.configured value)) ((configure value).run dialogue) := by
  cases read : Settings.read value with
  | error cause =>
      simp only [configure, run_bind, run_ofExcept, step, read, Session.configure_of_refused read]
      exact .turnedDown trivial rfl
  | ok settings =>
      rw [run_configure_of_read dialogue read, reacted]
      split
      next => exact .done
      next failure failed =>
        obtain ⟨cause, rfl⟩ := Session.configure_failure read failed
        exact .overflow cause

theorem ends_of_refresh_error {dialogue : Dialogue} {uri : Uri} {failure : Failure}
    (failed : dialogue.session.refresh uri = .error failure) :
    Ends dialogue dialogue (.error failure dialogue) := by
  rcases Session.refresh_eq_error failed with turnsDown | ⟨cause, rfl⟩
  · exact .turnedDown turnsDown rfl
  · exact .overflow cause

theorem refresh_ends (dialogue : Dialogue) (uri : Uri) :
    Ends dialogue (dialogue.step kindOf (.opened uri)) ((refresh uri true).run dialogue) := by
  rw [run_refresh]
  simp only [step]
  cases refreshed : dialogue.session.refresh uri with
  | ok found => exact .done
  | error failure => exact ends_of_refresh_error refreshed

theorem changed_ends (dialogue : Dialogue) (uri : Uri) :
    Ends dialogue (dialogue.step kindOf (.changed uri)) ((changed uri).run dialogue) := by
  rw [run_changed]
  simp only [step]
  cases edited : dialogue.session.changed uri with
  | ok outcome =>
      obtain ⟨commands, _ | request⟩ := outcome
      · exact .done
      · exact .done
  | error failure => exact ends_of_refresh_error (Session.changed_eq_error edited)

end Reaction

theorem Call.reaction_ends (kindOf : ProjectAnalyser → Option Kind) (dialogue : Dialogue)
    (call : Call) :
    Ends dialogue (dialogue.step kindOf call.event) (call.reaction.run dialogue) := by
  cases call with
  | opened uri => exact Reaction.refresh_ends kindOf dialogue uri
  | saved uri => exact Reaction.refresh_ends kindOf dialogue uri
  | changed uri => exact Reaction.changed_ends kindOf dialogue uri
  | configured value => exact Reaction.configure_ends kindOf dialogue value

end Dialogue

end ElmDiagnostics
