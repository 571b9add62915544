import ElmDiagnostics.Proofs.Outcome
import ElmDiagnostics.Proofs.Workspace.Ownership
import ElmDiagnostics.Session.Basic

/-!
Contract: what a session does when it lints, and what it makes of new settings.

Owns: `Session.LintFinds`, the findings of a lint run over one file; that every command which
linting sends sets the lint slot of a file to just these findings; and the case distinction behind
new settings.

Does not own: what the commands do to the board.
-/

set_option autoImplicit false

namespace ElmDiagnostics

namespace Session

/-! ### Folder and tree of a file -/

theorem resolve_eq_ok_iff (session : Session) (uri : Uri) (folder : Folder) (tree : Module) :
    session.resolve uri = .ok (folder, tree) ↔
      session.workspaces.folderOf uri = .ok folder ∧ folder.tree? uri = some tree := by
  unfold resolve
  cases found : session.workspaces.folderOf uri with
  | error cause => simp [bind, Except.bind]
  | ok owner =>
      cases hasTree : owner.tree? uri with
      | none =>
          have treeless : owner = folder → folder.tree? uri ≠ some tree := by
            rintro rfl
            simp [hasTree]
          simpa [bind, Except.bind, hasTree, throw, throwThe, MonadExceptOf.throw] using treeless
      | some itsTree =>
          simp only [bind, Except.bind, hasTree, pure, Except.pure, Except.ok.injEq, Prod.mk.injEq]
          constructor
          · rintro ⟨rfl, rfl⟩
            exact ⟨rfl, hasTree⟩
          · rintro ⟨rfl, isTree⟩
            exact ⟨rfl, Option.some.inj (hasTree.symm.trans isTree)⟩

/-- A file resolves exactly when it has a tree in its own folder. -/
theorem exists_resolve_iff (session : Session) (uri : Uri) (tree : Module) :
    (∃ folder, session.resolve uri = .ok (folder, tree)) ↔
      session.workspaces.tree? uri = some tree := by
  simp only [resolve_eq_ok_iff, Workspaces.folderOf_eq_ok_iff, Workspaces.tree?,
    Option.bind_eq_some_iff, Prod.exists]
  constructor
  · rintro ⟨folder, ⟨place, owned⟩, isTree⟩
    exact ⟨folder, place, owned, isTree⟩
  · rintro ⟨folder, place, owned, isTree⟩
    exact ⟨folder, ⟨place, owned⟩, isTree⟩

/-! ### One file -/

/-- A lint run over the file, under the settings and rules of the session, finds these. -/
def LintFinds (session : Session) (uri : Uri) (findings : List Diagnostic) : Prop :=
  ∃ folder tree, session.resolve uri = .ok (folder, tree) ∧
    if session.isExcluded folder uri then findings = []
    else session.rules.evaluate tree folder.interfaces = .ok findings

theorem LintFinds.unique {session : Session} {uri : Uri} {first second : List Diagnostic}
    (findsFirst : session.LintFinds uri first) (findsSecond : session.LintFinds uri second) :
    first = second := by
  obtain ⟨folder, tree, resolved, foundFirst⟩ := findsFirst
  obtain ⟨otherFolder, otherTree, resolvedAgain, foundSecond⟩ := findsSecond
  have same := Except.ok.inj (resolved.symm.trans resolvedAgain)
  obtain ⟨rfl, rfl⟩ := Prod.mk.inj same
  split at foundFirst
  next isExcluded =>
    rw [if_pos isExcluded] at foundSecond
    rw [foundFirst, foundSecond]
  next notExcluded =>
    rw [if_neg notExcluded] at foundSecond
    exact Except.ok.inj (foundFirst.symm.trans foundSecond)

theorem LintFinds.isSome_tree? {session : Session} {uri : Uri} {findings : List Diagnostic}
    (finds : session.LintFinds uri findings) : (session.workspaces.tree? uri).isSome := by
  obtain ⟨folder, tree, resolved, _⟩ := finds
  rw [(session.exists_resolve_iff uri tree).mp ⟨folder, resolved⟩]
  rfl

/-- The command shows the findings of a lint run over the file. -/
def ShowsLint (session : Session) (uri : Uri) (command : Command) : Prop :=
  session.settings.lintEnabled = true ∧
    ∃ findings, session.LintFinds uri findings ∧ command = .update uri .lint findings

theorem lint_shows {session : Session} {uri : Uri} {folder : Folder} {tree : Module}
    {commands : List Command} (resolved : session.resolve uri = .ok (folder, tree))
    (linted : session.lint uri folder tree = .ok commands) :
    ∀ command ∈ commands, session.ShowsLint uri command := by
  intro command isCommand
  unfold lint at linted
  split at linted
  next enabled =>
    refine ⟨enabled, ?_⟩
    split at linted
    next isExcluded =>
      cases linted
      refine ⟨[], ⟨folder, tree, resolved, ?_⟩, List.mem_singleton.mp isCommand⟩
      rw [if_pos isExcluded]
    next notExcluded =>
      split at linted
      next diagnostics evaluated =>
        cases linted
        refine ⟨diagnostics, ⟨folder, tree, resolved, ?_⟩, List.mem_singleton.mp isCommand⟩
        rw [if_neg notExcluded]
        exact evaluated
      next => exact absurd linted (by simp)
  next =>
    cases linted
    exact absurd isCommand (by simp)

theorem exists_update_of_lint {session : Session} {uri : Uri} {folder : Folder} {tree : Module}
    {commands : List Command} (enabled : session.settings.lintEnabled = true)
    (linted : session.lint uri folder tree = .ok commands) :
    ∃ findings, .update uri .lint findings ∈ commands := by
  unfold lint at linted
  rw [if_pos enabled] at linted
  split at linted
  · cases linted
    exact ⟨[], List.mem_singleton_self _⟩
  · split at linted
    next diagnostics _ =>
      cases linted
      exact ⟨diagnostics, List.mem_singleton_self _⟩
    next => exact absurd linted (by simp)

/-- A lint run succeeds unless evaluation does not. -/
theorem exists_lint {session : Session} {uri : Uri} {folder : Folder} {tree : Module}
    (enabled : session.settings.lintEnabled = true)
    (evaluates : session.isExcluded folder uri = false →
      ∃ findings, session.rules.evaluate tree folder.interfaces = .ok findings) :
    ∃ commands, session.lint uri folder tree = .ok commands := by
  unfold lint
  rw [if_pos enabled]
  cases isExcluded : session.isExcluded folder uri with
  | true => exact ⟨_, rfl⟩
  | false =>
      obtain ⟨findings, evaluated⟩ := evaluates isExcluded
      simp [evaluated]

theorem refresh_eq_ok {session : Session} {uri : Uri} {commands : List Command}
    {request : CheckRequest} (refreshed : session.refresh uri = .ok (commands, request)) :
    session.resolve uri = .ok (request.folder, request.tree) ∧ request.uri = uri ∧
      ∀ command ∈ commands, session.ShowsLint uri command := by
  unfold refresh at refreshed
  obtain ⟨⟨folder, tree⟩, resolved, linting⟩ := bind_eq_ok refreshed
  obtain ⟨lintCommands, linted, returned⟩ := bind_eq_ok linting
  cases returned
  exact ⟨resolved, rfl, lint_shows resolved linted⟩

theorem changed_eq_ok {session : Session} {uri : Uri} {commands : List Command}
    {request? : Option CheckRequest} (edited : session.changed uri = .ok (commands, request?)) :
    (∀ command ∈ commands, session.ShowsLint uri command) ∧
      ∀ request, request? = some request →
        session.resolve uri = .ok (request.folder, request.tree) ∧ request.uri = uri := by
  unfold changed at edited
  split at edited
  · cases edited
    simp
  · obtain ⟨⟨lintCommands, request⟩, refreshed, returned⟩ := bind_eq_ok edited
    cases returned
    obtain ⟨resolved, isUri, shows⟩ := refresh_eq_ok refreshed
    refine ⟨shows, ?_⟩
    intro asked isAsked
    cases isAsked
    exact ⟨resolved, isUri⟩

/-- Rules end early for one reason only. -/
theorem lint_eq_error {session : Session} {uri : Uri} {folder : Folder} {tree : Module}
    {failure : Failure} (failed : session.lint uri folder tree = .error failure) :
    ∃ cause, failure = .coordinate cause := by
  unfold lint at failed
  split at failed
  · split at failed
    · exact absurd failed (by simp)
    · split at failed
      next => exact absurd failed (by simp)
      next cause _ => exact ⟨cause, (Except.error.inj failed).symm⟩
  · exact absurd failed (by simp)

end Session

/-! ### Effects in turn -/

namespace Effects

variable {first next : Effects}

theorem commands_done (commands : List Command) : (done commands).commands = commands := rfl

theorem andThen_of_done (isDone : first.failure? = none) :
    first.andThen next = ⟨first.commands ++ next.commands, next.failure?⟩ := by
  rw [andThen, isDone]

theorem failure?_andThen (first next : Effects) :
    (first.andThen next).failure? = first.failure?.or next.failure? := by
  unfold andThen
  split
  next isDone => rw [isDone, Option.none_or]
  next failed => rw [failed, Option.some_or]

theorem mem_commands_of_mem_andThen {command : Command}
    (isCommand : command ∈ (first.andThen next).commands) :
    command ∈ first.commands ∨ command ∈ next.commands := by
  unfold andThen at isCommand
  split at isCommand
  · exact List.mem_append.mp isCommand
  · exact .inl isCommand

end Effects

namespace Session

/-! ### All files -/

theorem lintTracked_of_resolve {session : Session} {uri : Uri} {folder : Folder} {tree : Module}
    (resolved : session.resolve uri = .ok (folder, tree)) (rest : List Uri) :
    session.lintTracked (uri :: rest) =
      (Effects.ofExcept (session.lint uri folder tree)).andThen (session.lintTracked rest) := by
  rw [lintTracked, resolved]

theorem lintTracked_of_unresolved {session : Session} {uri : Uri} {cause : Failure}
    (unresolved : session.resolve uri = .error cause) (rest : List Uri) :
    session.lintTracked (uri :: rest) = session.lintTracked rest := by
  rw [lintTracked, unresolved]

/-- Whatever was sent shows findings, also before an overflow. -/
theorem lintTracked_shows (session : Session) (uris : List Uri) :
    ∀ command ∈ (session.lintTracked uris).commands, ∃ uri, session.ShowsLint uri command := by
  induction uris with
  | nil => simp [lintTracked, Effects.done]
  | cons uri rest inductionHypothesis =>
      cases resolved : session.resolve uri with
      | error cause =>
          rw [lintTracked_of_unresolved resolved]
          exact inductionHypothesis
      | ok found =>
          rw [lintTracked_of_resolve resolved]
          intro command isCommand
          rcases Effects.mem_commands_of_mem_andThen isCommand with isHere | isLater
          · cases linted : session.lint uri found.1 found.2 with
            | error failure =>
                rw [linted] at isHere
                exact absurd isHere List.not_mem_nil
            | ok here =>
                rw [linted] at isHere
                exact ⟨uri, lint_shows resolved linted command isHere⟩
          · exact inductionHypothesis command isLater

theorem lintTracked_failure {session : Session} {uris : List Uri} {failure : Failure}
    (failed : (session.lintTracked uris).failure? = some failure) :
    ∃ cause, failure = .coordinate cause := by
  induction uris with
  | nil => exact absurd failed (by simp [lintTracked, Effects.done])
  | cons uri rest inductionHypothesis =>
      cases resolved : session.resolve uri with
      | error cause =>
          rw [lintTracked_of_unresolved resolved] at failed
          exact inductionHypothesis failed
      | ok found =>
          rw [lintTracked_of_resolve resolved, Effects.failure?_andThen] at failed
          cases linted : session.lint uri found.1 found.2 with
          | error overflow =>
              rw [linted] at failed
              obtain rfl := Option.some.inj failed
              exact lint_eq_error linted
          | ok here =>
              rw [linted] at failed
              exact inductionHypothesis failed

/-- None of the files makes a lint run fail. -/
def LintsSafely (session : Session) (uris : List Uri) : Prop :=
  ∀ uri ∈ uris, ∀ folder tree, session.resolve uri = .ok (folder, tree) →
    session.isExcluded folder uri = false →
      ∃ findings, session.rules.evaluate tree folder.interfaces = .ok findings

theorem LintsSafely.lintTracked_done {session : Session} {uris : List Uri}
    (enabled : session.settings.lintEnabled = true) (safe : session.LintsSafely uris) :
    (session.lintTracked uris).failure? = none := by
  induction uris with
  | nil => rfl
  | cons uri rest inductionHypothesis =>
      have restDone := inductionHypothesis fun other isLater =>
        safe other (List.mem_cons_of_mem _ isLater)
      cases resolved : session.resolve uri with
      | error cause =>
          rw [lintTracked_of_unresolved resolved]
          exact restDone
      | ok found =>
          obtain ⟨here, linted⟩ :=
            exists_lint enabled (safe uri (List.mem_cons_self ..) found.1 found.2 resolved)
          rw [lintTracked_of_resolve resolved, linted, Effects.failure?_andThen, restDone]
          rfl

/-- Every file that resolves is shown its findings, unless an overflow ends the run. -/
theorem exists_update_of_lintTracked {session : Session} {uris : List Uri}
    (enabled : session.settings.lintEnabled = true)
    (isDone : (session.lintTracked uris).failure? = none) :
    ∀ uri ∈ uris, ∀ found, session.resolve uri = .ok found →
      ∃ findings, .update uri .lint findings ∈ (session.lintTracked uris).commands := by
  induction uris with
  | nil => simp
  | cons first rest inductionHypothesis =>
      intro uri isTracked found resolved
      cases resolvedFirst : session.resolve first with
      | error cause =>
          rw [lintTracked_of_unresolved resolvedFirst] at isDone ⊢
          rcases List.mem_cons.mp isTracked with rfl | isLater
          · exact absurd (resolvedFirst.symm.trans resolved) nofun
          · exact inductionHypothesis isDone uri isLater found resolved
      | ok foundFirst =>
          rw [lintTracked_of_resolve resolvedFirst] at isDone ⊢
          cases linted : session.lint first foundFirst.1 foundFirst.2 with
          | error failure =>
              rw [linted, Effects.failure?_andThen] at isDone
              exact absurd isDone nofun
          | ok here =>
              rw [linted, Effects.failure?_andThen] at isDone
              rw [Effects.andThen_of_done rfl]
              rcases List.mem_cons.mp isTracked with rfl | isLater
              · obtain ⟨findings, isHere⟩ := exists_update_of_lint enabled linted
                exact ⟨findings, List.mem_append_left _ isHere⟩
              · obtain ⟨findings, isCommand⟩ :=
                  inductionHypothesis isDone uri isLater found resolved
                exact ⟨findings, List.mem_append_right _ isCommand⟩

/-! ### New settings -/

theorem needsLint_eq_true_iff (previous current : Settings) :
    needsLint previous current = true ↔ previous.lintEnabled = false ∨
      previous.disabledRules ≠ current.disabledRules ∨
        previous.excludedPaths ≠ current.excludedPaths := by
  simp [needsLint, or_assoc]

/-- What is done about lint results when new settings are in force. -/
inductive LintReaction (previous : Settings) (configured : Session) : Effects → Prop where
  | rerun (enabled : configured.settings.lintEnabled = true)
      (needed : needsLint previous configured.settings = true) :
      LintReaction previous configured (configured.lintTracked configured.workspaces.trackedFiles)
  | keep (enabled : configured.settings.lintEnabled = true)
      (unneeded : needsLint previous configured.settings = false) :
      LintReaction previous configured (.done [])
  | clear (disabled : configured.settings.lintEnabled = false)
      (wasEnabled : previous.lintEnabled = true) :
      LintReaction previous configured (.done [.clearKind .lint])
  | staysOff (disabled : configured.settings.lintEnabled = false)
      (wasDisabled : previous.lintEnabled = false) : LintReaction previous configured (.done [])

theorem followSettings_reaction (configured : Session) (previous : Settings) :
    LintReaction previous configured (configured.followSettings previous) := by
  unfold followSettings
  split
  next enabled =>
    split
    next needed => exact .rerun enabled needed
    next unneeded => exact .keep enabled (Bool.eq_false_iff.mpr unneeded)
  next disabled =>
    have isDisabled := Bool.eq_false_iff.mpr disabled
    cases wasEnabled : previous.lintEnabled with
    | true => exact .clear isDisabled wasEnabled
    | false => exact .staysOff isDisabled wasEnabled

theorem followSettings_failure {configured : Session} {previous : Settings} {failure : Failure}
    (failed : (configured.followSettings previous).failure? = some failure) :
    ∃ cause, failure = .coordinate cause := by
  generalize isReaction : configured.followSettings previous = effects at failed
  have reaction := isReaction ▸ configured.followSettings_reaction previous
  cases reaction with
  | rerun => exact lintTracked_failure failed
  | _ => exact absurd failed nofun

theorem configure_of_refused {session : Session} {value : Json} {cause : SettingsError}
    (refused : Settings.read value = .error cause) :
    session.configure value = (session, .failed (.settings cause)) := by
  rw [configure, refused]

theorem configure_of_read {session : Session} {value : Json} {settings : Settings}
    (read : Settings.read value = .ok settings) :
    session.configure value = (session.withSettings settings,
      ((session.withSettings settings).followSettings session.settings).andThen
        (.done (externalCommands session.settings settings))) := by
  rw [configure, read]

/-- Settings that can be read fail for one reason only. -/
theorem configure_failure {session : Session} {value : Json} {settings : Settings}
    {failure : Failure} (read : Settings.read value = .ok settings)
    (failed : (session.configure value).2.failure? = some failure) :
    ∃ cause, failure = .coordinate cause := by
  rw [configure_of_read read, Effects.failure?_andThen] at failed
  exact followSettings_failure ((Option.or_none).symm.trans failed)

/-- A lint run overflows while it follows the settings. -/
def Overflows (session : Session) (value : Json) : Prop :=
  ∃ cause, (session.configure value).2.failure? = some (.coordinate cause)

/-- Settings that can be read are followed to the end, unless a lint run overflows. -/
theorem configure_of_not_overflows {session : Session} {value : Json} {settings : Settings}
    (read : Settings.read value = .ok settings) (safe : ¬ session.Overflows value) :
    ∃ followed, LintReaction session.settings (session.withSettings settings) followed ∧
      followed.failure? = none ∧
      session.configure value = (session.withSettings settings,
        .done (followed.commands ++ externalCommands session.settings settings)) := by
  refine ⟨_, followSettings_reaction _ _, ?_⟩
  have isDone : ((session.withSettings settings).followSettings session.settings).failure? =
      none := by
    by_contra failed
    obtain ⟨failure, isFailure⟩ := Option.ne_none_iff_exists'.mp failed
    have configureFails : (session.configure value).2.failure? = some failure := by
      rw [configure_of_read read, Effects.failure?_andThen, isFailure]
      rfl
    obtain ⟨cause, rfl⟩ := configure_failure read configureFails
    exact safe ⟨cause, configureFails⟩
  refine ⟨isDone, ?_⟩
  rw [configure_of_read read, Effects.andThen_of_done isDone]
  rfl

theorem LintsSafely.not_overflows {session : Session} {value : Json} {settings : Settings}
    (read : Settings.read value = .ok settings)
    (safe : (session.withSettings settings).LintsSafely session.workspaces.trackedFiles) :
    ¬ session.Overflows value := by
  rintro ⟨cause, failed⟩
  rw [configure_of_read read, Effects.failure?_andThen] at failed
  generalize isReaction :
    (session.withSettings settings).followSettings session.settings = effects at failed
  have reaction := isReaction ▸
    (session.withSettings settings).followSettings_reaction session.settings
  cases reaction with
  | rerun enabled =>
      have isDone : ((session.withSettings settings).lintTracked
          (session.withSettings settings).workspaces.trackedFiles).failure? = none :=
        safe.lintTracked_done enabled
      rw [isDone] at failed
      exact absurd failed nofun
  | _ => exact absurd failed nofun

end Session

end ElmDiagnostics
