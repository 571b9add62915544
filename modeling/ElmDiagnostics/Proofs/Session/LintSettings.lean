import ElmDiagnostics.Proofs.Chronicle
import ElmDiagnostics.Proofs.Session.CompletionOrder
import ElmDiagnostics.Proofs.Session.FreshLint

/-!
Contract: lint results follow the settings in force.

Owns: orderly runs, in which folders come first and a tree is removed with its file; that at every
point of such a run all findings shown are allowed by the settings; and that settings which change
what is found make every tracked file show the findings of a fresh lint run.

Does not own: whether a finding is still true of a file that was edited since it was linted.
-/

set_option autoImplicit false

namespace ElmDiagnostics.Dialogue

variable {kindOf : ProjectAnalyser → Option Kind}

/-! ### Orderly runs -/

/-- The file was deleted and nothing has linted it since. -/
def JustDeleted (events : List Event) (uri : Uri) : Prop :=
  ∃ before since, events = before ++ .deleted uri :: since ∧ ∀ event ∈ since, ¬ event.Lints uri

/-- The tree of the file was removed, and the file was deleted neither just before nor since. -/
def LeftBehind (events : List Event) (uri : Uri) : Prop :=
  ∃ before since, events = before ++ .treeRemoved uri :: since ∧ .deleted uri ∉ since ∧
    ¬ JustDeleted before uri

/-- Folders are added before any tree, and removing a tree goes with deleting the file: by the time
settings change, no file is left behind. -/
structure Orderly (events : List Event) : Prop where
  foldersFirst : ∀ before root, before ++ [.folderAdded root] <+: events →
    ∀ uri tree, .treeSet uri tree ∉ before
  removalsDelete : ∀ before value, before ++ [.configured value] <+: events →
    ∀ uri, ¬ LeftBehind before uri

theorem JustDeleted.of_concat {events : List Event} {event : Event} {uri : Uri}
    (justDeleted : JustDeleted (events ++ [event]) uri) :
    event = .deleted uri ∨ JustDeleted events uri ∧ ¬ event.Lints uri := by
  obtain ⟨before, since, split, noLint⟩ := justDeleted
  rcases concat_eq_append_cons split with ⟨_, isDeleted, _⟩ | ⟨earlier, rfl, rfl⟩
  · exact .inl isDeleted
  · refine .inr ⟨⟨before, earlier, rfl, ?_⟩, ?_⟩
    · intro other isEarlier
      exact noLint other (by simp [isEarlier])
    · exact noLint event (by simp)

theorem LeftBehind.concat {events : List Event} {event : Event} {uri : Uri}
    (leftBehind : LeftBehind events uri) (notDeleted : event ≠ .deleted uri) :
    LeftBehind (events ++ [event]) uri := by
  obtain ⟨before, since, rfl, notSince, notBefore⟩ := leftBehind
  refine ⟨before, since ++ [event], by simp, ?_, notBefore⟩
  rw [List.mem_append, List.mem_singleton, not_or]
  exact ⟨notSince, notDeleted.symm⟩

theorem Orderly.of_prefix {before events : List Event} (orderly : Orderly events)
    (isPrefix : before <+: events) : Orderly before where
  foldersFirst earlier root isEarlier :=
    orderly.foldersFirst earlier root (isEarlier.trans isPrefix)
  removalsDelete earlier value isEarlier :=
    orderly.removalsDelete earlier value (isEarlier.trans isPrefix)

/-! ### Sessions after a step -/

section Sessions

variable {session : Session} {event : Event} {uri : Uri}

theorem inForce_sessionAfter (inForce : session.rules = .without session.settings.disabledRules) :
    (sessionAfter session event).rules =
      .without (sessionAfter session event).settings.disabledRules := by
  cases event with
  | configured value =>
      unfold sessionAfter Session.configure
      dsimp only
      split
      · exact inForce
      · rfl
  | treeSet file tree =>
      simp only [sessionAfter]
      split <;> exact inForce
  | _ => exact inForce

theorem homed_sessionAfter (homed : session.workspaces.Homed)
    (foldersFirst : ∀ root, event = .folderAdded root → session.workspaces.trackedFiles = []) :
    (sessionAfter session event).workspaces.Homed := by
  cases event with
  | configured value =>
      rw [workspaces_sessionAfter_configured]
      exact homed
  | folderAdded root =>
      apply Workspaces.homed_of_trackedFiles_eq_nil
      exact (session.workspaces.trackedFiles_addFolder root).trans (foldersFirst root rfl)
  | treeSet file tree =>
      simp only [sessionAfter]
      split
      next workspaces succeeds => exact homed.setTree succeeds
      next => exact homed
  | treeRemoved file => exact homed.removeTree file
  | _ => exact homed

theorem ownerPath?_sessionAfter (notFolder : ∀ root, event ≠ .folderAdded root) :
    (sessionAfter session event).workspaces.ownerPath? uri = session.workspaces.ownerPath? uri := by
  cases event with
  | configured value => rw [workspaces_sessionAfter_configured]
  | folderAdded root => exact absurd rfl (notFolder root)
  | treeSet file tree =>
      simp only [sessionAfter]
      split
      next workspaces succeeds => exact Workspaces.ownerPath?_setTree succeeds uri
      next => rfl
  | treeRemoved file => exact Workspaces.ownerPath?_removeTree session.workspaces file uri
  | _ => rfl

theorem isSome_tree?_sessionAfter (hasTree : (session.workspaces.tree? uri).isSome)
    (notFolder : ∀ root, event ≠ .folderAdded root) (notRemoved : event ≠ .treeRemoved uri) :
    ((sessionAfter session event).workspaces.tree? uri).isSome := by
  cases event with
  | configured value =>
      rw [workspaces_sessionAfter_configured]
      exact hasTree
  | folderAdded root => exact absurd rfl (notFolder root)
  | treeSet file tree =>
      simp only [sessionAfter]
      split
      next workspaces succeeds =>
        rw [Workspaces.tree?_setTree succeeds]
        split
        · rfl
        · exact hasTree
      next => exact hasTree
  | treeRemoved file =>
      have isOther : uri ≠ file := by
        rintro rfl
        exact notRemoved rfl
      change ((session.workspaces.removeTree file).tree? uri).isSome
      rw [Workspaces.tree?_removeTree, if_neg isOther]
      exact hasTree
  | _ => exact hasTree

end Sessions

/-! ### What a run keeps -/

/-- What holds after the events of an orderly run. -/
structure FollowsSettings (events : List Event) (dialogue : Dialogue) : Prop where
  inForce : dialogue.session.rules = .without dialogue.session.settings.disabledRules
  homed : dialogue.session.workspaces.Homed
  allowed : ∀ uri, ∀ finding ∈ dialogue.slot uri .lint, dialogue.session.Allows uri finding
  hasTree : ∀ uri, dialogue.slot uri .lint ≠ [] →
    (dialogue.session.workspaces.tree? uri).isSome ∨ LeftBehind events uri
  cleared : ∀ uri, JustDeleted events uri → dialogue.slot uri .lint = []
  treeless : (∀ uri tree, .treeSet uri tree ∉ events) → ∀ uri,
    dialogue.session.workspaces.tree? uri = none ∧ dialogue.slot uri .lint = []

section Steps

variable {events : List Event} {dialogue : Dialogue} {event : Event} {uri : Uri}

theorem FollowsSettings.lint_empty_of_folderAdded {root : String}
    (follows : FollowsSettings events dialogue)
    (orderly : Orderly (events ++ [.folderAdded root])) (uri : Uri) :
    dialogue.session.workspaces.tree? uri = none ∧ dialogue.slot uri .lint = [] :=
  follows.treeless (orderly.foldersFirst events root List.prefix_rfl) uri

theorem FollowsSettings.homed_step (follows : FollowsSettings events dialogue)
    (orderly : Orderly (events ++ [event])) :
    (sessionAfter dialogue.session event).workspaces.Homed := by
  apply homed_sessionAfter follows.homed
  rintro root rfl
  apply List.eq_nil_iff_forall_not_mem.mpr
  intro file isTracked
  rw [follows.homed.mem_trackedFiles_iff,
    (follows.lint_empty_of_folderAdded orderly file).1] at isTracked
  exact absurd isTracked (by simp)

/-- New settings leave no finding that they do not allow. -/
theorem FollowsSettings.allows_of_configured (follows : FollowsSettings events dialogue)
    {value : Json} (orderly : Orderly (events ++ [.configured value]))
    (safe : ¬ dialogue.session.Overflows value) {finding : Diagnostic}
    (wasHeld : finding ∈ dialogue.slot uri .lint)
    (isHeld : finding ∈
      (dialogue.send (dialogue.session.configure value).2.commands).slot uri .lint) :
    (dialogue.session.configure value).1.Allows uri finding := by
  have wasAllowed := follows.allowed uri finding wasHeld
  cases read : Settings.read value with
  | error cause =>
      rw [Session.configure_of_refused read]
      exact wasAllowed
  | ok settings =>
      obtain ⟨followed, reaction, isDone, isConfigured⟩ :=
        Session.configure_of_not_overflows read safe
      rw [isConfigured] at isHeld ⊢
      rw [Effects.commands_done, send_append, slot_lint_send_externalCommands] at isHeld
      cases reaction with
      | rerun enabled needed =>
          -- only tracked files hold findings, and these are linted afresh
          have notLeft := orderly.removalsDelete events value List.prefix_rfl uri
          have hasTree := (follows.hasTree uri (List.ne_nil_of_mem wasHeld)).resolve_right notLeft
          have isTracked := (follows.homed.mem_trackedFiles_iff uri).mpr hasTree
          have homed : (dialogue.session.withSettings settings).workspaces.Homed := follows.homed
          have finds := lintFinds_slot_of_lintTracked dialogue homed enabled isDone isTracked
          exact finds.allows enabled rfl finding isHeld
      | keep enabled unneeded =>
          rw [← Bool.not_eq_true, Session.needsLint_eq_true_iff] at unneeded
          obtain ⟨_, sameLists⟩ := not_or.mp unneeded
          obtain ⟨sameRules, samePaths⟩ := not_or.mp sameLists
          exact wasAllowed.congr enabled (not_not.mp sameRules).symm (not_not.mp samePaths).symm rfl
      | clear disabled wasEnabled =>
          rw [Effects.commands_done, slot_send_singleton, Board.applied, Store.slot_clearKind,
            if_pos rfl] at isHeld
          exact absurd isHeld (by simp)
      | staysOff disabled wasDisabled =>
          exact absurd (wasDisabled.symm.trans wasAllowed.enabled) (by simp)

variable (noneLints : ∀ analyser, kindOf analyser ≠ some .lint)

include noneLints

/-- A lint finding that is new in a file comes from a lint run over the file. -/
theorem mem_lint_step {finding : Diagnostic}
    (isHeld : finding ∈ (dialogue.step kindOf event).slot uri .lint) :
    finding ∈ dialogue.slot uri .lint ∨
      event.Lints uri ∧ (sessionAfter dialogue.session event).settings.lintEnabled = true ∧
        ∃ findings, (sessionAfter dialogue.session event).LintFinds uri findings ∧
          finding ∈ findings := by
  rcases mem_slot_step isHeld with wasHeld | brought
  · exact .inl wasHeld
  · cases brought with
    | lint lints enabled finds isFinding => exact .inr ⟨lints, enabled, _, finds, isFinding⟩
    | run _ itsKind _ => exact absurd itsKind (noneLints _)

theorem FollowsSettings.cleared_step (follows : FollowsSettings events dialogue)
    (justDeleted : JustDeleted (events ++ [event]) uri) :
    (dialogue.step kindOf event).slot uri .lint = [] := by
  rcases justDeleted.of_concat with rfl | ⟨wasDeleted, noLint⟩
  · exact slot_step_deleted dialogue uri .lint
  · apply List.eq_nil_iff_forall_not_mem.mpr
    intro finding isHeld
    rcases mem_lint_step noneLints isHeld with wasHeld | ⟨lints, _⟩
    · rw [follows.cleared uri wasDeleted] at wasHeld
      exact absurd wasHeld (by simp)
    · exact noLint lints

theorem FollowsSettings.treeless_step (follows : FollowsSettings events dialogue)
    (noTree : ∀ uri tree, .treeSet uri tree ∉ events ++ [event]) (uri : Uri) :
    (sessionAfter dialogue.session event).workspaces.tree? uri = none ∧
      (dialogue.step kindOf event).slot uri .lint = [] := by
  have noTreeBefore : ∀ uri tree, .treeSet uri tree ∉ events := by
    intro file tree isSet
    exact noTree file tree (List.mem_append_left _ isSet)
  obtain ⟨wasTreeless, wasEmpty⟩ := follows.treeless noTreeBefore uri
  have treelessAfter : (sessionAfter dialogue.session event).workspaces.tree? uri = none := by
    apply tree?_sessionAfter_of_none wasTreeless
    intro tree isSet
    exact noTree uri tree (List.mem_append_right _ (List.mem_singleton.mpr isSet.symm))
  refine ⟨treelessAfter, List.eq_nil_iff_forall_not_mem.mpr ?_⟩
  intro finding isHeld
  rcases mem_lint_step noneLints isHeld with wasHeld | ⟨_, _, findings, finds, _⟩
  · rw [wasEmpty] at wasHeld
    exact absurd wasHeld (by simp)
  · have hasTree := finds.isSome_tree?
    rw [treelessAfter] at hasTree
    exact absurd hasTree (by simp)

theorem FollowsSettings.hasTree_step (follows : FollowsSettings events dialogue)
    (orderly : Orderly (events ++ [event]))
    (nonempty : (dialogue.step kindOf event).slot uri .lint ≠ []) :
    ((sessionAfter dialogue.session event).workspaces.tree? uri).isSome ∨
      LeftBehind (events ++ [event]) uri := by
  obtain ⟨finding, isHeld⟩ := List.exists_mem_of_ne_nil _ nonempty
  rcases mem_lint_step noneLints isHeld with wasHeld | ⟨_, _, findings, finds, _⟩
  · have wasNonempty : dialogue.slot uri .lint ≠ [] := List.ne_nil_of_mem wasHeld
    have notFolder : ∀ root, event ≠ .folderAdded root := by
      rintro root rfl
      exact wasNonempty (follows.lint_empty_of_folderAdded orderly uri).2
    rcases follows.hasTree uri wasNonempty with hadTree | wasLeft
    · by_cases isRemoved : event = .treeRemoved uri
      · -- the tree goes while findings are there, so the file was not deleted just before
        have notDeleted : ¬ JustDeleted events uri := by
          intro justDeleted
          exact wasNonempty (follows.cleared uri justDeleted)
        exact .inr ⟨events, [], by rw [isRemoved], by simp, notDeleted⟩
      · exact .inl (isSome_tree?_sessionAfter hadTree notFolder isRemoved)
    · refine .inr (wasLeft.concat ?_)
      rintro rfl
      exact nonempty (slot_step_deleted dialogue uri .lint)
  · exact .inl finds.isSome_tree?

theorem FollowsSettings.allowed_step (follows : FollowsSettings events dialogue)
    (orderly : Orderly (events ++ [event]))
    (safe : ∀ value, event = .configured value → ¬ dialogue.session.Overflows value)
    {finding : Diagnostic}
    (isHeld : finding ∈ (dialogue.step kindOf event).slot uri .lint) :
    (sessionAfter dialogue.session event).Allows uri finding := by
  rcases mem_lint_step noneLints isHeld with wasHeld | ⟨_, enabled, findings, finds, isFinding⟩
  · have wasAllowed := follows.allowed uri finding wasHeld
    by_cases isConfigured : ∃ value, event = .configured value
    · obtain ⟨value, rfl⟩ := isConfigured
      rw [slot_step] at isHeld
      exact follows.allows_of_configured orderly (safe value rfl) wasHeld isHeld
    · have notFolder : ∀ root, event ≠ .folderAdded root := by
        rintro root rfl
        rw [(follows.lint_empty_of_folderAdded orderly uri).2] at wasHeld
        exact absurd wasHeld (by simp)
      have sameSettings : (sessionAfter dialogue.session event).settings =
          dialogue.session.settings := settings_sessionAfter (not_exists.mp isConfigured)
      refine wasAllowed.congr ?_ ?_ ?_ (ownerPath?_sessionAfter notFolder)
      · rw [sameSettings]
        exact wasAllowed.enabled
      · rw [sameSettings]
      · rw [sameSettings]
  · exact finds.allows enabled (inForce_sessionAfter follows.inForce) finding isFinding

theorem FollowsSettings.step (follows : FollowsSettings events dialogue)
    (orderly : Orderly (events ++ [event]))
    (safe : ∀ value, event = .configured value → ¬ dialogue.session.Overflows value) :
    FollowsSettings (events ++ [event]) (dialogue.step kindOf event) where
  inForce := by
    rw [session_step]
    exact inForce_sessionAfter follows.inForce
  homed := by
    rw [session_step]
    exact follows.homed_step orderly
  allowed := by
    rw [session_step]
    intro uri finding isHeld
    exact follows.allowed_step noneLints orderly safe isHeld
  hasTree := by
    rw [session_step]
    intro uri nonempty
    exact follows.hasTree_step noneLints orderly nonempty
  cleared := by
    intro uri justDeleted
    exact follows.cleared_step noneLints justDeleted
  treeless := by
    rw [session_step]
    intro noTree uri
    exact follows.treeless_step noneLints noTree uri

theorem FollowsSettings.run (follows : FollowsSettings [] dialogue) (orderly : Orderly events)
    (never : NeverOverflows kindOf dialogue events) :
    FollowsSettings events (dialogue.run kindOf events) := by
  induction events using List.reverseRecOn with
  | nil => exact follows
  | append_singleton events event inductionHypothesis =>
      rw [run_concat]
      have isEarlier : events <+: events ++ [event] := List.prefix_append _ _
      have followsEarlier :=
        inductionHypothesis (orderly.of_prefix isEarlier) (never.of_prefix isEarlier)
      apply followsEarlier.step noneLints orderly
      rintro value rfl
      exact never events value List.prefix_rfl

end Steps

/-- At the start nothing is shown, and no file has a tree. -/
theorem start_followsSettings (settings : Settings) (window : Nat) :
    FollowsSettings [] (start (Session.new.withSettings settings) window) := by
  have empty : ∀ uri, (start (Session.new.withSettings settings) window).slot uri .lint = [] :=
    fun _ => rfl
  refine ⟨rfl, Workspaces.homed_of_trackedFiles_eq_nil rfl, ?_, ?_, fun uri _ => empty uri, ?_⟩
  · intro uri finding isHeld
    rw [empty] at isHeld
    exact absurd isHeld (by simp)
  · intro uri nonempty
    exact absurd (empty uri) nonempty
  · intro _ uri
    have unowned : Workspaces.empty.owner? uri = none := by
      unfold Workspaces.owner?
      cases uri.filePath? <;> rfl
    exact ⟨by simp [start, Session.withSettings, Session.new, Workspaces.tree?, unowned], empty uri⟩

/-- Settings that can be read and change what is found make every tracked file show the findings
of a fresh lint run. -/
theorem FollowsSettings.relinted {events : List Event} {dialogue : Dialogue}
    (follows : FollowsSettings events dialogue) {value : Json} {settings : Settings}
    (read : Settings.read value = .ok settings) (enabled : settings.lintEnabled = true)
    (needed : Session.needsLint dialogue.session.settings settings = true)
    (safe : (dialogue.session.withSettings settings).LintsSafely
      dialogue.session.workspaces.trackedFiles) :
    (dialogue.step kindOf (.configured value)).session = dialogue.session.withSettings settings ∧
      ∀ uri ∈ dialogue.session.workspaces.trackedFiles,
        (dialogue.session.withSettings settings).LintFinds uri
          ((dialogue.step kindOf (.configured value)).slot uri .lint) := by
  obtain ⟨followed, reaction, isDone, isConfigured⟩ :=
    Session.configure_of_not_overflows read (safe.not_overflows read)
  constructor
  · rw [session_step, sessionAfter, isConfigured]
  intro uri isTracked
  rw [slot_step, sent, isConfigured, Effects.commands_done, send_append,
    slot_lint_send_externalCommands]
  cases reaction with
  | rerun =>
      exact lintFinds_slot_of_lintTracked dialogue follows.homed enabled isDone isTracked
  | keep _ unneeded => exact absurd (unneeded.symm.trans needed) (by simp)
  | clear disabled _ => exact absurd (disabled.symm.trans enabled) (by simp)
  | staysOff disabled _ => exact absurd (disabled.symm.trans enabled) (by simp)

/-- In every orderly run without overflow, at every point: the rules in force are those that the
settings do not disable; while linting is off no file shows a finding; while it is on, no file shows
a finding of a disabled rule, and no excluded file shows any. And when settings that can be read
leave linting on, and turn it on or change the disabled rules or the excluded paths, then every
tracked file shows just what a fresh lint run finds under them. -/
theorem lint_follows_settings (noneLints : ∀ analyser, kindOf analyser ≠ some .lint)
    (initial : Settings) (window : Nat) (events : List Event) (orderly : Orderly events)
    (never : NeverOverflows kindOf (start (Session.new.withSettings initial) window) events)
    (before : List Event) (isPoint : before <+: events) :
    let reached := (start (Session.new.withSettings initial) window).run kindOf before
    let settings := reached.session.settings
    reached.session.rules = .without settings.disabledRules ∧
      (settings.lintEnabled = false → ∀ uri, reached.slot uri .lint = []) ∧
      (settings.lintEnabled = true → ∀ uri,
        (∀ finding ∈ reached.slot uri .lint, finding.code ∉ settings.disabledRules) ∧
          (reached.session.Excludes uri → reached.slot uri .lint = [])) ∧
      ∀ value new, Settings.read value = .ok new → new.lintEnabled = true →
        (settings.lintEnabled = false ∨ settings.disabledRules ≠ new.disabledRules ∨
          settings.excludedPaths ≠ new.excludedPaths) →
        (reached.session.withSettings new).LintsSafely reached.session.workspaces.trackedFiles →
        let configured := reached.step kindOf (.configured value)
        configured.session = reached.session.withSettings new ∧
          ∀ uri ∈ configured.session.workspaces.trackedFiles,
            configured.session.LintFinds uri (configured.slot uri .lint) := by
  intro reached settings
  have follows : FollowsSettings before reached :=
    (start_followsSettings initial window).run noneLints (orderly.of_prefix isPoint)
      (never.of_prefix isPoint)
  refine ⟨follows.inForce, ?_, ?_, ?_⟩
  · intro disabled uri
    apply List.eq_nil_iff_forall_not_mem.mpr
    intro finding isHeld
    exact absurd (disabled.symm.trans (follows.allowed uri finding isHeld).enabled) (by simp)
  · intro _ uri
    refine ⟨fun finding isHeld => (follows.allowed uri finding isHeld).notDisabled, ?_⟩
    intro excludes
    apply List.eq_nil_iff_forall_not_mem.mpr
    intro finding isHeld
    exact (follows.allowed uri finding isHeld).notExcluded excludes
  · intro value new read enabled changes safe configured
    have needed := (Session.needsLint_eq_true_iff settings new).mpr changes
    have isSession : configured.session = reached.session.withSettings new :=
      (follows.relinted read enabled needed safe).1
    refine ⟨isSession, ?_⟩
    rw [isSession]
    exact (follows.relinted read enabled needed safe).2

/-! ### Disabling a rule -/

/-- The module `port module Main exposing (..)`, without any port. -/
def portModule : Module :=
  ⟨some ⟨.port, ⟨"Main", default⟩, .all default, default⟩, [], [], default⟩

def spareFile : Uri := ⟨"file:///project/Spare.elm"⟩

/-- Two files are linted, and one of them is removed. -/
def spareRemoved : List Event :=
  [.folderAdded "/project", .treeSet savedFile portModule, .treeSet spareFile portModule,
    .opened savedFile, .opened spareFile, .treeRemoved spareFile, .deleted spareFile]

def ruleDisabled : Json := .object [("disabledRules", .array [.string "unnecessary_port_module"])]

theorem LeftBehind.treeRemoved_mem {events : List Event} {uri : Uri}
    (leftBehind : LeftBehind events uri) : .treeRemoved uri ∈ events := by
  obtain ⟨before, since, rfl, _⟩ := leftBehind
  simp

theorem not_leftBehind_of_deleted_last (events : List Event) (uri : Uri) :
    ¬ LeftBehind (events ++ [.deleted uri]) uri := by
  rintro ⟨before, since, split, notSince, _⟩
  rcases concat_eq_append_cons split with ⟨_, isRemoved, _⟩ | ⟨earlier, _, rfl⟩
  · exact absurd isRemoved (by simp)
  · exact notSince (by simp)

theorem spareRemoved_orderly : Orderly (spareRemoved ++ [.configured ruleDisabled]) where
  foldersFirst := by
    intro before root isPrefix
    cases before with
    | nil => simp
    | cons first rest =>
        have isLater : .folderAdded root ∈ rest ++ [.folderAdded root] := by simp
        have isEvent := (List.cons_prefix_cons.mp isPrefix).2.subset isLater
        exact absurd isEvent (by simp)
  removalsDelete := by
    intro before value isPrefix uri leftBehind
    rcases List.prefix_concat_iff.mp isPrefix with isWhole | isEarlier
    · obtain ⟨rfl, _⟩ := List.append_inj' isWhole rfl
      have isSpare : uri = spareFile := by
        simpa [spareRemoved] using leftBehind.treeRemoved_mem
      rw [isSpare] at leftBehind
      exact not_leftBehind_of_deleted_last (spareRemoved.take 6) spareFile leftBehind
    · have isEvent : .configured value ∈ spareRemoved := isEarlier.subset (by simp)
      exact absurd isEvent (by simp [spareRemoved])

theorem spareRemoved_lintsSafely :
    let reached := (start (Session.new.withSettings {}) 50).run usualKinds spareRemoved
    (reached.session.withSettings { disabledRules := ["unnecessary_port_module"] }).LintsSafely
      reached.session.workspaces.trackedFiles := by
  intro reached uri isTracked folder tree resolved _
  obtain rfl : uri = savedFile := List.mem_singleton.mp isTracked
  cases resolved
  exact ⟨[], rfl⟩

theorem spareRemoved_neverOverflows :
    NeverOverflows usualKinds (start (Session.new.withSettings {}) 50)
      (spareRemoved ++ [.configured ruleDisabled]) := by
  have noSettings : ∀ value, .configured value ∉ spareRemoved := by simp [spareRemoved]
  apply (neverOverflows_of_no_settings noSettings).concat
  rintro value same
  obtain rfl := Event.configured.inj same
  exact spareRemoved_lintsSafely.not_overflows rfl

theorem disabled_rule_disappears :
    (∀ analyser, usualKinds analyser ≠ some .lint) ∧
      Orderly (spareRemoved ++ [.configured ruleDisabled]) ∧
      NeverOverflows usualKinds (start (Session.new.withSettings {}) 50)
        (spareRemoved ++ [.configured ruleDisabled]) ∧
      let reached := (start (Session.new.withSettings {}) 50).run usualKinds spareRemoved
      let configured := reached.step usualKinds (.configured ruleDisabled)
      (reached.slot savedFile .lint).map (·.code) = ["unnecessary_port_module"] ∧
        configured.slot savedFile .lint = [] := by
  have noneLints : ∀ analyser, usualKinds analyser ≠ some .lint := by
    intro analyser
    cases analyser <;> decide
  refine ⟨noneLints, spareRemoved_orderly, spareRemoved_neverOverflows, ?_⟩
  intro reached configured
  refine ⟨rfl, ?_⟩
  obtain ⟨_, _, _, relints⟩ := lint_follows_settings noneLints {} 50
    (spareRemoved ++ [.configured ruleDisabled]) spareRemoved_orderly spareRemoved_neverOverflows
    spareRemoved (List.prefix_append _ _)
  obtain ⟨isSession, finds⟩ := relints ruleDisabled { disabledRules := ["unnecessary_port_module"] }
    rfl rfl (.inr (.inl (by decide))) spareRemoved_lintsSafely
  have isTracked : savedFile ∈ configured.session.workspaces.trackedFiles := by
    rw [isSession]
    exact List.mem_singleton_self _
  have findsNothing : configured.session.LintFinds savedFile [] := by
    rw [isSession]
    exact ⟨_, portModule, rfl, rfl⟩
  exact (finds savedFile isTracked).unique findsNothing

end ElmDiagnostics.Dialogue
