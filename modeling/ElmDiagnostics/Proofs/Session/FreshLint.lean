import ElmDiagnostics.Proofs.Rule.ReportCode
import ElmDiagnostics.Proofs.Session.Dialogue

/-!
Contract: the findings of a lint run, and what settings have to do with them.

Owns: which findings settings allow a file to show; that a lint run finds nothing else; and that
after a lint run over all tracked files each of them shows just what the rules find in it.

Does not own: when such a run takes place.
-/

set_option autoImplicit false

namespace ElmDiagnostics

/-! ### Findings that settings allow -/

namespace Session

/-- The file lies under a path of its folder that is excluded from linting. -/
def Excludes (session : Session) (uri : Uri) : Prop :=
  ∃ folder, session.workspaces.folderOf uri = .ok folder ∧ session.isExcluded folder uri = true

/-- The settings allow the file to show the finding. -/
structure Allows (session : Session) (uri : Uri) (finding : Diagnostic) : Prop where
  enabled : session.settings.lintEnabled = true
  notDisabled : finding.code ∉ session.settings.disabledRules
  notExcluded : ¬ session.Excludes uri

/-- Exclusion depends on the path of the folder and the excluded paths alone. -/
theorem Excludes.congr {first second : Session} {uri : Uri} (excludes : first.Excludes uri)
    (sameOwner : second.workspaces.ownerPath? uri = first.workspaces.ownerPath? uri)
    (samePaths : second.settings.excludedPaths = first.settings.excludedPaths) :
    second.Excludes uri := by
  obtain ⟨folder, isFolder, isExcluded⟩ := excludes
  obtain ⟨place, owned⟩ := (Workspaces.folderOf_eq_ok_iff _ _ _).mp isFolder
  have hasOwner : second.workspaces.ownerPath? uri = some folder.path := by
    rw [sameOwner, Workspaces.ownerPath?, owned]
    rfl
  obtain ⟨⟨other, otherPlace⟩, otherOwned, samePath⟩ := Option.map_eq_some_iff.mp hasOwner
  refine ⟨other, (Workspaces.folderOf_eq_ok_iff _ _ _).mpr ⟨otherPlace, otherOwned⟩, ?_⟩
  unfold Session.isExcluded Settings.isExcluded at isExcluded ⊢
  rw [samePaths, samePath]
  exact isExcluded

theorem Allows.congr {first second : Session} {uri : Uri} {finding : Diagnostic}
    (allows : first.Allows uri finding) (enabled : second.settings.lintEnabled = true)
    (sameRules : second.settings.disabledRules = first.settings.disabledRules)
    (samePaths : second.settings.excludedPaths = first.settings.excludedPaths)
    (sameOwner : second.workspaces.ownerPath? uri = first.workspaces.ownerPath? uri) :
    second.Allows uri finding := by
  refine ⟨enabled, ?_, ?_⟩
  · rw [sameRules]
    exact allows.notDisabled
  · intro excludes
    exact allows.notExcluded (excludes.congr sameOwner.symm samePaths.symm)

/-- What a lint run finds, the settings allow. -/
theorem LintFinds.allows {session : Session} {uri : Uri} {findings : List Diagnostic}
    (finds : session.LintFinds uri findings) (enabled : session.settings.lintEnabled = true)
    (inForce : session.rules = .without session.settings.disabledRules) :
    ∀ finding ∈ findings, session.Allows uri finding := by
  intro finding isFinding
  obtain ⟨folder, tree, resolved, found⟩ := finds
  have isFolder := ((resolve_eq_ok_iff _ _ _ _).mp resolved).1
  split at found
  next =>
    rw [found] at isFinding
    exact absurd isFinding (by simp)
  next notExcluded =>
    rw [inForce] at found
    refine ⟨enabled, RuleSet.code_not_mem_of_evaluate_without found finding isFinding, ?_⟩
    intro ⟨owner, isOwner, isExcluded⟩
    rw [Except.ok.inj (isFolder.symm.trans isOwner)] at notExcluded
    exact notExcluded isExcluded

end Session

namespace Dialogue

/-! ### A fresh lint run -/

/-- If all commands that touch a slot set it to the same list, and one does, it holds that list. -/
theorem slot_send_of_agree (dialogue : Dialogue) {commands : List Command} {uri : Uri} {kind : Kind}
    {diagnostics : List Diagnostic}
    (agree : ∀ command ∈ commands, command.Touches uri kind →
      command = .update uri kind diagnostics)
    (isSet : .update uri kind diagnostics ∈ commands) :
    (dialogue.send commands).slot uri kind = diagnostics := by
  induction commands generalizing dialogue with
  | nil => exact absurd isSet (by simp)
  | cons command rest inductionHypothesis =>
      rw [slot_send_cons]
      have agreeLater : ∀ later ∈ rest, later.Touches uri kind →
          later = .update uri kind diagnostics := by
        intro later isLater
        exact agree later (List.mem_cons_of_mem _ isLater)
      by_cases isLater : .update uri kind diagnostics ∈ rest
      · exact inductionHypothesis _ agreeLater isLater
      · -- nothing after the head touches the slot
        have isHead := (List.mem_cons.mp isSet).resolve_right isLater
        rw [slot_send_of_untouched, ← isHead, slot_send_singleton, Board.applied, Store.slot_update,
          if_pos ⟨rfl, rfl⟩]
        intro later isRest touches
        exact isLater (agreeLater later isRest touches ▸ isRest)

/-- When the rules run over all tracked files, each of them shows what they find. -/
theorem lintFinds_slot_of_lintTracked (dialogue : Dialogue) {session : Session} {uri : Uri}
    (homed : session.workspaces.Homed) (enabled : session.settings.lintEnabled = true)
    (isDone : (session.lintTracked session.workspaces.trackedFiles).failure? = none)
    (isTracked : uri ∈ session.workspaces.trackedFiles) :
    let commands := (session.lintTracked session.workspaces.trackedFiles).commands
    session.LintFinds uri ((dialogue.send commands).slot uri .lint) := by
  intro commands
  obtain ⟨tree, isTree⟩ :=
    Option.isSome_iff_exists.mp ((homed.mem_trackedFiles_iff uri).mp isTracked)
  obtain ⟨folder, resolved⟩ := (session.exists_resolve_iff uri tree).mpr isTree
  obtain ⟨findings, isUpdated⟩ :=
    Session.exists_update_of_lintTracked enabled isDone uri isTracked (folder, tree) resolved
  obtain ⟨file, _, itsFindings, finds, isUpdate⟩ := session.lintTracked_shows _ _ isUpdated
  obtain ⟨rfl, rfl⟩ : uri = file ∧ findings = itsFindings := by simpa using isUpdate
  have slotEq : (dialogue.send commands).slot uri .lint = findings := by
    apply slot_send_of_agree dialogue _ isUpdated
    intro command isCommand touches
    obtain ⟨other, _, otherFindings, otherFinds, rfl⟩ :=
      session.lintTracked_shows _ command isCommand
    obtain ⟨rfl, _⟩ := touches
    rw [otherFinds.unique finds]
  rw [slotEq]
  exact finds

theorem slot_lint_send_externalCommands (dialogue : Dialogue) (previous current : Settings)
    (uri : Uri) :
    (dialogue.send (Session.externalCommands previous current)).slot uri .lint =
      dialogue.slot uri .lint := by
  apply slot_send_of_untouched
  intro command isExternal touches
  unfold Session.externalCommands at isExternal
  split at isExternal
  · rw [List.mem_singleton.mp isExternal] at touches
    have sameKind : Kind.lint = .externalLint := touches
    exact absurd sameKind (by decide)
  · exact absurd isExternal (by simp)

end Dialogue

end ElmDiagnostics
