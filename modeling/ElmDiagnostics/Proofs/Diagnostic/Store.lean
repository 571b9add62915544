import ElmDiagnostics.Diagnostic.Store
import ElmDiagnostics.Proofs.Diagnostic.Contents

/-!
Contract: what each store operation does to every slot of every file.

Owns: one slot equation for each operation of `Store`, and that a file which an operation does
not list as changed shows what it showed before.

Does not own: when changes are published.
-/

set_option autoImplicit false

namespace ElmDiagnostics.Store

open Diagnostic

/-! ### One file -/

/-- With or without a record, replacing a slot comes to the same: an absent record is as good as an
empty one. -/
theorem replaceSlot_eq (store : Store) (uri : Uri) (kind : Kind) (diagnostics : List Diagnostic) :
    store.replaceSlot uri kind diagnostics =
      let (updated, changed) := (store.report uri).replaceSlot kind diagnostics
      (⟨if updated.isEmpty then store.files.erase uri else store.files.insert uri updated⟩,
        changed) := by
  cases found : store.files.get? uri with
  | some record => simp only [replaceSlot, report, found, Option.getD_some]
  | none =>
      cases diagnostics with
      | nil =>
          have nothingToErase : store.files.erase uri = store.files := by
            refine Table.ext_get? fun wanted => ?_
            rw [Table.get?_erase]
            split
            next isUri => rw [isUri, found]
            next => rfl
          have staysEmpty : (FileReport.empty.setSlot kind []).isEmpty = true := by
            cases kind <;> rfl
          have unchanged : FileReport.empty.changes kind [] = false := by
            cases kind <;> rfl
          simp only [replaceSlot, report, found, Option.getD_none, FileReport.replaceSlot,
            List.isEmpty_nil, if_true, staysEmpty, nothingToErase, unchanged]
      | cons first rest =>
          have notEmpty : (FileReport.empty.setSlot kind (first :: rest)).isEmpty = false := by
            cases kind <;> rfl
          have changed : FileReport.empty.changes kind (first :: rest) = true := by
            cases kind <;> rfl
          simp only [replaceSlot, report, found, Option.getD_none, FileReport.replaceSlot,
            List.isEmpty_cons, Bool.false_eq_true, if_false, notEmpty, changed]

theorem update_eq (store : Store) (uri : Uri) (kind : Kind) (diagnostics : List Diagnostic) :
    store.update uri kind diagnostics =
      let updated := (store.report uri).setSlot kind diagnostics
      ⟨if updated.isEmpty then store.files.erase uri else store.files.insert uri updated⟩ :=
  congrArg Prod.fst (store.replaceSlot_eq uri kind diagnostics)

theorem changes_eq (store : Store) (uri : Uri) (kind : Kind) (diagnostics : List Diagnostic) :
    store.changes uri kind diagnostics = (store.report uri).changes kind diagnostics :=
  congrArg Prod.snd (store.replaceSlot_eq uri kind diagnostics)

theorem get?_update (store : Store) (uri wanted : Uri) (kind : Kind)
    (diagnostics : List Diagnostic) :
    (store.update uri kind diagnostics).files.get? wanted =
      if wanted = uri then
        let report := (store.report uri).setSlot kind diagnostics
        if report.isEmpty then none else some report
      else store.files.get? wanted := by
  rw [update_eq]
  dsimp only
  split
  · exact Table.get?_erase store.files uri wanted
  · exact Table.get?_insert store.files uri wanted _

theorem report_update (store : Store) (uri wanted : Uri) (kind : Kind)
    (diagnostics : List Diagnostic) :
    (store.update uri kind diagnostics).report wanted =
      if wanted = uri then (store.report uri).setSlot kind diagnostics else store.report wanted := by
  rw [report, get?_update]
  split
  · -- a record that is dropped was empty, and its absence reads the same
    dsimp only
    split
    next becomesEmpty => rw [(FileReport.isEmpty_iff _).mp becomesEmpty, Option.getD_none]
    next => rw [Option.getD_some]
  · rfl

theorem report_delete (store : Store) (uri wanted : Uri) :
    (store.delete uri).report wanted = if wanted = uri then .empty else store.report wanted := by
  simp only [delete, remove, report, Table.get?_erase]
  split <;> rfl

theorem slot_update (store : Store) (uri wanted : Uri) (kind other : Kind)
    (diagnostics : List Diagnostic) :
    ((store.update uri kind diagnostics).report wanted).slot other =
      if wanted = uri ∧ other = kind then diagnostics else (store.report wanted).slot other := by
  rw [report_update]
  by_cases isUri : wanted = uri
  · subst isUri
    simp [FileReport.slot_setSlot]
  · simp [isUri]

/-- An update that does not count as a change leaves what every file shows. -/
theorem get_update_of_unchanged {store : Store} {uri : Uri} {kind : Kind}
    {diagnostics : List Diagnostic} (unchanged : store.changes uri kind diagnostics = false)
    (wanted : Uri) :
    SameProblems (store.get wanted) ((store.update uri kind diagnostics).get wanted) := by
  rw [get, get, report_update]
  split
  next isUri =>
    subst isUri
    rw [changes_eq] at unchanged
    exact FileReport.merged_setSlot_of_unchanged unchanged
  next => exact .refl _

theorem get_update_of_ne {store : Store} {uri wanted : Uri} (kind : Kind)
    (diagnostics : List Diagnostic) (different : wanted ≠ uri) :
    (store.update uri kind diagnostics).get wanted = store.get wanted := by
  rw [get, report_update, if_neg different, get]

/-! ### Several files -/

theorem updateAll_cons (store : Store) (kind : Kind) (entry : Uri × List Diagnostic)
    (rest : List (Uri × List Diagnostic)) :
    store.updateAll kind (entry :: rest) =
      let after := (store.update entry.1 kind entry.2).updateAll kind rest
      (after.1, if store.changes entry.1 kind entry.2 then entry.1 :: after.2 else after.2) := rfl

/-- A file that a bulk update does not list shows what it showed before. -/
theorem get_updateAll_of_not_mem (store : Store) (kind : Kind)
    (entries : List (Uri × List Diagnostic)) (wanted : Uri)
    (notListed : wanted ∉ (store.updateAll kind entries).2) :
    SameProblems (store.get wanted) ((store.updateAll kind entries).1.get wanted) := by
  induction entries generalizing store with
  | nil => exact .refl _
  | cons entry rest inductionHypothesis =>
      obtain ⟨uri, diagnostics⟩ := entry
      simp only [updateAll_cons] at notListed ⊢
      cases changed : store.changes uri kind diagnostics with
      | true =>
          rw [changed, if_pos rfl, List.mem_cons, not_or] at notListed
          rw [← get_update_of_ne kind diagnostics notListed.1]
          exact inductionHypothesis _ notListed.2
      | false =>
          rw [changed, if_neg (by decide)] at notListed
          exact (get_update_of_unchanged changed wanted).trans (inductionHypothesis _ notListed)

theorem slot_updateAll_of_ne (store : Store) {kind other : Kind} (different : other ≠ kind)
    (entries : List (Uri × List Diagnostic)) (wanted : Uri) :
    ((store.updateAll kind entries).1.report wanted).slot other =
      (store.report wanted).slot other := by
  induction entries generalizing store with
  | nil => rfl
  | cons entry rest inductionHypothesis =>
      simp only [updateAll_cons]
      rw [inductionHypothesis, slot_update, if_neg (fun both => different both.2)]

theorem lookup_eq_none_of_not_mem {entries : List (Uri × List Diagnostic)} {wanted : Uri}
    (absent : wanted ∉ entries.map (·.1)) : entries.lookup wanted = none := by
  cases found : entries.lookup wanted with
  | none => rfl
  | some diagnostics =>
      exact absurd (List.mem_map_of_mem (Table.mem_of_lookup_eq_some found)) absent

theorem slot_updateAll (store : Store) (kind : Kind) (entries : List (Uri × List Diagnostic))
    (distinctFiles : (entries.map (·.1)).Nodup) (wanted : Uri) :
    ((store.updateAll kind entries).1.report wanted).slot kind =
      (entries.lookup wanted).getD ((store.report wanted).slot kind) := by
  induction entries generalizing store with
  | nil => rfl
  | cons entry rest inductionHypothesis =>
      obtain ⟨uri, diagnostics⟩ := entry
      obtain ⟨notLater, restDistinct⟩ := List.nodup_cons.mp distinctFiles
      simp only [updateAll_cons]
      rw [inductionHypothesis _ restDistinct, slot_update]
      by_cases isUri : wanted = uri
      · subst isUri
        simp [lookup_eq_none_of_not_mem notLater]
      · simp [List.lookup_cons, isUri, beq_false_of_ne isUri]

theorem changes_eq_true_iff (store : Store) (uri : Uri) (kind : Kind) (diagnostics : List Diagnostic) :
    store.changes uri kind diagnostics = true ↔
      ¬ SameProblems ((store.report uri).slot kind) diagnostics := by
  rw [changes_eq, ← FileReport.changes_eq_false_iff, Bool.not_eq_false]

/-- A bulk update lists exactly the files whose slot it changes. -/
theorem mem_updateAll_iff (store : Store) (kind : Kind) (entries : List (Uri × List Diagnostic))
    (distinctFiles : (entries.map (·.1)).Nodup) (wanted : Uri) :
    wanted ∈ (store.updateAll kind entries).2 ↔
      ¬ SameProblems ((store.report wanted).slot kind)
        (((store.updateAll kind entries).1.report wanted).slot kind) := by
  induction entries generalizing store with
  | nil => simpa [updateAll] using SameProblems.refl _
  | cons entry rest inductionHypothesis =>
      obtain ⟨uri, diagnostics⟩ := entry
      obtain ⟨notLater, restDistinct⟩ := List.nodup_cons.mp distinctFiles
      have later := inductionHypothesis (store.update uri kind diagnostics) restDistinct
      by_cases isUri : wanted = uri
      · subst isUri
        -- No later entry is for the file, so its slot keeps what this entry sets.
        have keptLater : (((store.update wanted kind diagnostics).updateAll kind rest).1.report
            wanted).slot kind = diagnostics := by
          rw [slot_updateAll _ _ _ restDistinct, lookup_eq_none_of_not_mem notLater, slot_update]
          simp
        have notListedLater :
            wanted ∉ ((store.update wanted kind diagnostics).updateAll kind rest).2 := by
          rw [later, keptLater, slot_update, not_not]
          simpa using SameProblems.refl diagnostics
        simp only [updateAll_cons, keptLater]
        rw [← changes_eq_true_iff]
        split
        next changed => exact iff_of_true (List.mem_cons_self ..) changed
        next unchanged => exact iff_of_false notListedLater unchanged
      · have sameBefore : ((store.update uri kind diagnostics).report wanted).slot kind =
            (store.report wanted).slot kind := by
          rw [slot_update, if_neg (fun both => isUri both.1)]
        rw [sameBefore] at later
        simp only [updateAll_cons]
        split
        · rw [List.mem_cons, or_iff_right isUri, later]
        · exact later

theorem updateAll_sublist (store : Store) (kind : Kind) (entries : List (Uri × List Diagnostic)) :
    (store.updateAll kind entries).2.Sublist (entries.map (·.1)) := by
  induction entries generalizing store with
  | nil => exact .slnil
  | cons entry rest inductionHypothesis =>
      simp only [updateAll_cons, List.map_cons]
      split
      · exact (inductionHypothesis _).cons_cons _
      · exact (inductionHypothesis _).cons _

/-! ### Whole projects -/

theorem mem_holders_iff (store : Store) (kind : Kind) (uri : Uri) :
    uri ∈ store.holders kind ↔ (store.report uri).slot kind ≠ [] := by
  simp only [holders, List.mem_filter, Bool.not_eq_true', List.isEmpty_eq_false_iff]
  refine ⟨fun holds => holds.2, fun nonempty => ⟨?_, nonempty⟩⟩
  rw [uris, Table.mem_keys_iff]
  -- Without a record every slot would read as empty.
  cases found : store.files.get? uri with
  | some record => rfl
  | none =>
      refine absurd ?_ nonempty
      rw [report, found]
      cases kind <;> rfl

theorem get?_foldl_insert_missing (uris : List Uri) (results : ProjectResults) (wanted : Uri) :
    (uris.foldl (fun results uri => if results.contains uri then results else results.insert uri [])
      results).get? wanted =
        (results.get? wanted).or (if wanted ∈ uris then some [] else none) := by
  induction uris generalizing results with
  | nil => simp
  | cons uri rest inductionHypothesis =>
      rw [List.foldl_cons, inductionHypothesis]
      by_cases isUri : wanted = uri
      · subst isUri
        cases found : results.get? wanted with
        | none => simp [Table.contains, found, Table.get?_insert]
        | some diagnostics => simp [Table.contains, found]
      · split <;> simp [Table.get?_insert, isUri]

/-- The results of a run are kept, and files that hold diagnostics of the kind are added empty. -/
theorem get?_resetMissing (store : Store) (kind : Kind) (results : ProjectResults) (wanted : Uri) :
    (store.resetMissing kind results).get? wanted =
      (results.get? wanted).or (if wanted ∈ store.holders kind then some [] else none) :=
  get?_foldl_insert_missing (store.holders kind) results wanted

/-- A bulk replacement sets the slot of its kind to what the run reports for the file, which is
nothing where the run does not mention it, and leaves all other slots. -/
theorem slot_replace (store : Store) (kind other : Kind) (results : ProjectResults) (wanted : Uri) :
    ((store.replace kind results).1.report wanted).slot other =
      if other = kind then (results.get? wanted).getD [] else (store.report wanted).slot other := by
  rw [replace]
  split
  next isKind =>
    subst isKind
    have reset := get?_resetMissing store other results wanted
    rw [slot_updateAll store other _ (Table.keys_nodup _) wanted]
    rw [Table.get?] at reset
    rw [reset]
    cases found : results.get? wanted with
    | some diagnostics => rfl
    | none =>
        by_cases holds : wanted ∈ store.holders other
        · simp [holds]
        · have slotEmpty := not_not.mp (mt (mem_holders_iff store other wanted).mpr holds)
          simp [holds, slotEmpty]
  next different => exact slot_updateAll_of_ne store different _ wanted

/-- Emptying the slots of a kind is replacing them by the results of a run that reports nothing. -/
theorem clearKind_eq_replace (store : Store) (kind : Kind) :
    store.clearKind kind = store.replace kind ∅ := by
  have holdersIncreasing : ((store.holders kind).map fun uri => (uri, ([] : List Diagnostic))).Pairwise
      fun earlier later => earlier.1 < later.1 := by
    rw [List.pairwise_map]
    exact store.files.keys_increasing.filter _
  have sameEntries : ((store.holders kind).map fun uri => (uri, [])) =
      (store.resetMissing kind ∅).entries := by
    refine Table.eq_of_mem_iff holdersIncreasing (Table.increasing _) fun (uri, diagnostics) => ?_
    rw [Table.mem_entries_iff, get?_resetMissing]
    by_cases holds : uri ∈ store.holders kind
    · simp [holds]
    · simp [holds]
  rw [clearKind, replace, sameEntries]

theorem slot_clearKind (store : Store) (kind other : Kind) (wanted : Uri) :
    ((store.clearKind kind).1.report wanted).slot other =
      if other = kind then [] else (store.report wanted).slot other := by
  rw [clearKind_eq_replace, slot_replace]
  rfl

end ElmDiagnostics.Store
