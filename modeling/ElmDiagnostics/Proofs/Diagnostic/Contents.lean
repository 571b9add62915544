import ElmDiagnostics.Diagnostic.FileReport
import Mathlib.Data.List.Perm.Basic
import Mathlib.Data.List.Perm.Subperm

/-!
Contract: what comparing and merging lists of diagnostics preserves.

Owns: `SameProblems`, reordering up to identity; that `sameContents` decides it; that merging keeps
the first diagnostic of each identity and nothing else; and that the merged list of a file depends,
up to reordering, only on the contents of its slots.

Does not own: which slots a command replaces.
-/

set_option autoImplicit false

namespace ElmDiagnostics

/-! ### Reordering up to identity -/

namespace Diagnostic

/-- The bits of the tags that are in a list. -/
def bitsOf (tags : List Tag) : UInt8 :=
  (if .unnecessary ∈ tags then Tag.bit .unnecessary else 0) |||
    if .deprecated ∈ tags then Tag.bit .deprecated else 0

theorem bitsOf_cons (tag : Tag) (rest : List Tag) :
    bitsOf (tag :: rest) = tag.bit ||| bitsOf rest := by
  by_cases unnecessary : .unnecessary ∈ rest <;> by_cases deprecated : .deprecated ∈ rest <;>
    cases tag <;> simp [bitsOf, unnecessary, deprecated] <;> decide

theorem foldl_bit (tags : List Tag) (bits : UInt8) :
    tags.foldl (fun bits tag => bits ||| tag.bit) bits = bits ||| bitsOf tags := by
  induction tags generalizing bits with
  | nil => simp [bitsOf]
  | cons tag rest inductionHypothesis =>
      rw [List.foldl_cons, inductionHypothesis, bitsOf_cons, UInt8.or_assoc]

theorem tagSet_eq_bitsOf (diagnostic : Diagnostic) :
    diagnostic.tagSet = bitsOf diagnostic.tags := by
  rw [tagSet, foldl_bit, UInt8.zero_or]

/-- Setting bit after bit forgets how tags are ordered and repeated, and nothing else. -/
theorem tagSet_eq_iff (left right : Diagnostic) :
    left.tagSet = right.tagSet ↔ ∀ tag, tag ∈ left.tags ↔ tag ∈ right.tags := by
  have sameTags : (∀ tag, tag ∈ left.tags ↔ tag ∈ right.tags) ↔
      (.unnecessary ∈ left.tags ↔ .unnecessary ∈ right.tags) ∧
        (.deprecated ∈ left.tags ↔ .deprecated ∈ right.tags) := by
    constructor
    · intro same
      exact ⟨same .unnecessary, same .deprecated⟩
    · rintro ⟨unnecessary, deprecated⟩ tag
      cases tag with
      | unnecessary => exact unnecessary
      | deprecated => exact deprecated
  rw [sameTags, tagSet_eq_bitsOf, tagSet_eq_bitsOf, bitsOf, bitsOf]
  by_cases leftUnnecessary : .unnecessary ∈ left.tags <;>
    by_cases leftDeprecated : .deprecated ∈ left.tags <;>
    by_cases rightUnnecessary : .unnecessary ∈ right.tags <;>
    by_cases rightDeprecated : .deprecated ∈ right.tags <;>
    simp [leftUnnecessary, leftDeprecated, rightUnnecessary, rightDeprecated] <;> decide

/-- Diagnostics count as the same whatever their source and payload, and however their tags are
ordered and repeated. -/
theorem same_iff (left right : Diagnostic) :
    Same left right ↔
      left.code = right.code ∧ left.message = right.message ∧ left.severity = right.severity ∧
        left.range = right.range ∧ ∀ tag, tag ∈ left.tags ↔ tag ∈ right.tags := by
  simp only [Same, identity, Identity.mk.injEq, tagSet_eq_iff]

/-- One list is a permutation of the other, where diagnostics of one identity count as equal. -/
def SameProblems (left right : List Diagnostic) : Prop :=
  ∃ reordered, left.Perm reordered ∧ List.Forall₂ Same reordered right

theorem forall₂_same_iff (left right : List Diagnostic) :
    List.Forall₂ Same left right ↔ left.map identity = right.map identity := by
  rw [← List.forall₂_eq_eq_eq, List.forall₂_map_left_iff, List.forall₂_map_right_iff]
  rfl

/-- Reordering up to identity is reordering of the identities. -/
theorem sameProblems_iff_perm (left right : List Diagnostic) :
    SameProblems left right ↔ (left.map identity).Perm (right.map identity) := by
  constructor
  · rintro ⟨reordered, permuted, same⟩
    rw [← (forall₂_same_iff reordered right).mp same]
    exact permuted.map identity
  · intro permuted
    -- Carry the permutation of the identities over to the diagnostics that have them.
    have ownIdentities :
        List.Forall₂ (fun id diagnostic => id = identity diagnostic) (left.map identity) left := by
      rw [List.forall₂_map_left_iff]
      exact List.forall₂_same.mpr fun _ _ => rfl
    obtain ⟨reordered, identities, reorders⟩ :=
      List.perm_comp_forall₂ permuted.symm ownIdentities
    refine ⟨reordered, reorders.symm, ?_⟩
    rw [List.forall₂_map_left_iff] at identities
    exact identities.flip.imp fun _ _ same => same.symm

theorem SameProblems.refl (diagnostics : List Diagnostic) : SameProblems diagnostics diagnostics :=
  (sameProblems_iff_perm _ _).mpr (.refl _)

theorem SameProblems.symm {left right : List Diagnostic} (same : SameProblems left right) :
    SameProblems right left := by
  rw [sameProblems_iff_perm] at same ⊢
  exact same.symm

theorem SameProblems.trans {first second third : List Diagnostic}
    (same : SameProblems first second) (sameLater : SameProblems second third) :
    SameProblems first third := by
  rw [sameProblems_iff_perm] at same sameLater ⊢
  exact same.trans sameLater

theorem sameProblems_append_left_iff (common left right : List Diagnostic) :
    SameProblems (common ++ left) (common ++ right) ↔ SameProblems left right := by
  simp only [sameProblems_iff_perm, List.map_append, List.perm_append_left_iff]

theorem sameProblems_append_right_iff (common left right : List Diagnostic) :
    SameProblems (left ++ common) (right ++ common) ↔ SameProblems left right := by
  simp only [sameProblems_iff_perm, List.map_append, List.perm_append_right_iff]

theorem sameProblems_nil_iff (diagnostics : List Diagnostic) :
    SameProblems diagnostics [] ↔ diagnostics = [] := by
  rw [sameProblems_iff_perm, List.map_nil, List.perm_nil, List.map_eq_nil_iff]

end Diagnostic

/-! ### Counting identities -/

namespace Tally

open Diagnostic

theorem count_addTo (added wanted : Identity) (counts : List (Identity × Nat)) :
    ((addTo added counts).lookup wanted).getD 0 =
      (counts.lookup wanted).getD 0 + if wanted = added then 1 else 0 := by
  induction counts with
  | nil =>
      by_cases isAdded : wanted = added
      · simp [addTo, isAdded]
      · simp [addTo, List.lookup_cons, isAdded, beq_false_of_ne isAdded]
  | cons entry rest inductionHypothesis =>
      obtain ⟨other, number⟩ := entry
      by_cases isOther : wanted = other
      · subst isOther
        by_cases isAdded : added = wanted
        · simp [addTo, isAdded]
        · simp [addTo, isAdded, Ne.symm isAdded]
      · by_cases isAdded : added = other
        · subst isAdded
          simp [addTo, List.lookup_cons, isOther, beq_false_of_ne isOther]
        · simpa [addTo, List.lookup_cons, isAdded, beq_false_of_ne isOther]
            using inductionHypothesis

theorem takeFrom?_isSome_iff (taken : Identity) (counts : List (Identity × Nat)) :
    (takeFrom? taken counts).isSome ↔ 0 < (counts.lookup taken).getD 0 := by
  induction counts with
  | nil => simp [takeFrom?]
  | cons entry rest inductionHypothesis =>
      obtain ⟨other, number⟩ := entry
      by_cases isOther : taken = other
      · subst isOther
        cases number <;> simp [takeFrom?]
      · simpa [takeFrom?, List.lookup_cons, isOther, beq_false_of_ne isOther]
          using inductionHypothesis

theorem count_takeFrom? {taken : Identity} {counts after : List (Identity × Nat)}
    (wanted : Identity) (takes : takeFrom? taken counts = some after) :
    (counts.lookup wanted).getD 0 =
      (after.lookup wanted).getD 0 + if wanted = taken then 1 else 0 := by
  induction counts generalizing after with
  | nil => simp [takeFrom?] at takes
  | cons entry rest inductionHypothesis =>
      obtain ⟨other, number⟩ := entry
      by_cases isOther : taken = other
      · subst isOther
        cases number with
        | zero => simp [takeFrom?] at takes
        | succ remaining =>
            obtain rfl : (taken, remaining) :: rest = after := by simpa [takeFrom?] using takes
            by_cases isTaken : wanted = taken
            · simp [isTaken]
            · simp [List.lookup_cons, isTaken, beq_false_of_ne isTaken]
      · obtain ⟨restAfter, restTakes, rfl⟩ :
            ∃ restAfter, takeFrom? taken rest = some restAfter ∧
              (other, number) :: restAfter = after := by
          simpa [takeFrom?, isOther] using takes
        by_cases isHead : wanted = other
        · subst isHead
          simp [Ne.symm isOther]
        · simpa [List.lookup_cons, beq_false_of_ne isHead] using inductionHypothesis restTakes

theorem count_add (tally : Tally) (added wanted : Identity) :
    (tally.add added).count wanted = tally.count wanted + if wanted = added then 1 else 0 :=
  count_addTo added wanted tally.counts

theorem take?_isSome_iff (tally : Tally) (taken : Identity) :
    (tally.take? taken).isSome ↔ 0 < tally.count taken := by
  rw [take?, Option.isSome_map]
  exact takeFrom?_isSome_iff taken tally.counts

theorem count_of_take? {tally after : Tally} {taken : Identity} (wanted : Identity)
    (takes : tally.take? taken = some after) :
    tally.count wanted = after.count wanted + if wanted = taken then 1 else 0 := by
  obtain ⟨counts, taken?, rfl⟩ := Option.map_eq_some_iff.mp takes
  exact count_takeFrom? wanted taken?

theorem count_foldl_add (diagnostics : List Diagnostic) (tally : Tally) (wanted : Identity) :
    (diagnostics.foldl (fun tally diagnostic => tally.add diagnostic.identity) tally).count wanted =
      tally.count wanted + (diagnostics.map identity).count wanted := by
  induction diagnostics generalizing tally with
  | nil => simp
  | cons diagnostic rest inductionHypothesis =>
      rw [List.foldl_cons, inductionHypothesis, count_add, List.map_cons, List.count_cons]
      by_cases isHead : wanted = diagnostic.identity
      · simp only [isHead, ↓reduceIte, beq_self_eq_true]
        omega
      · simp [isHead, Ne.symm isHead]

/-- The tally of a list counts each identity as often as the list holds it. -/
theorem count_ofList (diagnostics : List Diagnostic) (wanted : Identity) :
    (ofList diagnostics).count wanted = (diagnostics.map identity).count wanted := by
  rw [ofList, count_foldl_add]
  simp [count]

theorem takeAll?_cons (tally : Tally) (diagnostic : Diagnostic) (rest : List Diagnostic) :
    tally.takeAll? (diagnostic :: rest) =
      (tally.take? diagnostic.identity).bind fun after => after.takeAll? rest := by
  rw [takeAll?, List.foldlM_cons]
  rfl

/-- A list can be taken off a tally exactly when the tally counts enough of every identity. -/
theorem takeAll?_isSome_iff (diagnostics : List Diagnostic) (tally : Tally) :
    (tally.takeAll? diagnostics).isSome ↔
      ∀ wanted, (diagnostics.map identity).count wanted ≤ tally.count wanted := by
  induction diagnostics generalizing tally with
  | nil => simp [takeAll?]
  | cons diagnostic rest inductionHypothesis =>
      have headCount (wanted : Identity) :
          ((diagnostic :: rest).map identity).count wanted =
            (rest.map identity).count wanted + if wanted = diagnostic.identity then 1 else 0 := by
        by_cases isHead : wanted = diagnostic.identity
        · simp [isHead]
        · simp [isHead, Ne.symm isHead]
      cases takes : tally.take? diagnostic.identity with
      | none =>
          have noneLeft : ¬ 0 < tally.count diagnostic.identity := by
            rw [← take?_isSome_iff, takes]
            simp
          have fails : tally.takeAll? (diagnostic :: rest) = none := by
            rw [takeAll?_cons, takes, Option.bind_none]
          refine ⟨fun succeeds => absurd succeeds (by simp [fails]), fun enough => ?_⟩
          have headEnough := enough diagnostic.identity
          rw [headCount, if_pos rfl] at headEnough
          omega
      | some after =>
          have continues : tally.takeAll? (diagnostic :: rest) = after.takeAll? rest := by
            rw [takeAll?_cons, takes, Option.bind_some]
          rw [continues, inductionHypothesis]
          constructor
          · intro enough wanted
            rw [headCount, count_of_take? wanted takes]
            have := enough wanted
            omega
          · intro enough wanted
            have wantedEnough := enough wanted
            rw [headCount, count_of_take? wanted takes] at wantedEnough
            omega

end Tally

namespace Diagnostic

/-- The comparison of two lists decides whether one reorders the other up to identity. -/
theorem sameContents_iff (old new : List Diagnostic) :
    sameContents old new = true ↔ SameProblems old new := by
  have enough_iff : ((Tally.ofList old).takeAll? new).isSome ↔
      (new.map identity).Subperm (old.map identity) := by
    rw [Tally.takeAll?_isSome_iff, List.subperm_iff_count]
    simp only [Tally.count_ofList]
  rw [sameContents, Bool.and_eq_true, decide_eq_true_eq, enough_iff, sameProblems_iff_perm]
  constructor
  · rintro ⟨sameLength, enough⟩
    -- Equally long, and nothing of `new` is missing from `old`: nothing of `old` is left over.
    exact (enough.perm_of_length_le (by simp [sameLength])).symm
  · intro permuted
    exact ⟨by simpa using permuted.length_eq, permuted.symm.subperm⟩

/-! ### Merging -/

theorem identity_mem_distinctFrom (seen : List Identity) (diagnostics : List Diagnostic)
    (wanted : Identity) :
    wanted ∈ (distinctFrom seen diagnostics).map identity ↔
      wanted ∈ diagnostics.map identity ∧ wanted ∉ seen := by
  induction diagnostics generalizing seen with
  | nil => simp [distinctFrom]
  | cons diagnostic rest inductionHypothesis =>
      by_cases isSeen : diagnostic.identity ∈ seen
      · rw [distinctFrom, if_pos isSeen, inductionHypothesis, List.map_cons, List.mem_cons]
        constructor
        · exact fun ⟨inRest, notSeen⟩ => ⟨.inr inRest, notSeen⟩
        · rintro ⟨isHead | inRest, notSeen⟩
          · exact absurd (isHead ▸ isSeen) notSeen
          · exact ⟨inRest, notSeen⟩
      · rw [distinctFrom, if_neg isSeen, List.map_cons, List.map_cons, List.mem_cons, List.mem_cons,
          inductionHypothesis, List.mem_cons]
        by_cases isHead : wanted = diagnostic.identity
        · simp [isHead, isSeen]
        · simp [isHead]

/-- What is left of a list is the first diagnostic of each identity. -/
theorem mem_distinctFrom_iff (seen : List Identity) (diagnostics : List Diagnostic)
    (wanted : Diagnostic) :
    wanted ∈ distinctFrom seen diagnostics ↔
      wanted.identity ∉ seen ∧
        diagnostics.find? (fun diagnostic => diagnostic.identity = wanted.identity) =
          some wanted := by
  induction diagnostics generalizing seen with
  | nil => simp [distinctFrom]
  | cons diagnostic rest inductionHypothesis =>
      by_cases isHead : diagnostic.identity = wanted.identity
      · rw [List.find?_cons_of_pos (by simp [isHead]), distinctFrom, ← isHead]
        split
        next isSeen => simp [inductionHypothesis, ← isHead, isSeen]
        next notSeen => simp [inductionHypothesis, ← isHead, notSeen, eq_comm]
      · rw [List.find?_cons_of_neg (by simp [isHead]), distinctFrom]
        split
        next isSeen => exact inductionHypothesis seen
        next notSeen =>
          have notHead : wanted ≠ diagnostic := fun same => isHead (same ▸ rfl)
          rw [List.mem_cons, inductionHypothesis, List.mem_cons]
          simp [notHead, Ne.symm isHead]

theorem distinctFrom_sublist (seen : List Identity) (diagnostics : List Diagnostic) :
    (distinctFrom seen diagnostics).Sublist diagnostics := by
  induction diagnostics generalizing seen with
  | nil => exact .slnil
  | cons diagnostic rest inductionHypothesis =>
      rw [distinctFrom]
      split
      · exact .cons diagnostic (inductionHypothesis seen)
      · exact .cons_cons diagnostic (inductionHypothesis _)

theorem distinctFrom_nodup (seen : List Identity) (diagnostics : List Diagnostic) :
    ((distinctFrom seen diagnostics).map identity).Nodup := by
  induction diagnostics generalizing seen with
  | nil => simp [distinctFrom]
  | cons diagnostic rest inductionHypothesis =>
      rw [distinctFrom]
      split
      · exact inductionHypothesis seen
      · rw [List.map_cons, List.nodup_cons, identity_mem_distinctFrom]
        refine ⟨fun ⟨_, notSeen⟩ => notSeen (List.mem_cons_self ..), inductionHypothesis _⟩

/-- What is kept of a list is the first diagnostic of each problem, in the order of the list. -/
structure KeepsFirst (kept diagnostics : List Diagnostic) : Prop where
  sublist : kept.Sublist diagnostics
  different : kept.Pairwise fun earlier later => ¬ Same earlier later
  complete : ∀ problem ∈ diagnostics, ∃ shown ∈ kept, Same problem shown
  first : ∀ shown ∈ kept, ∃ before after, diagnostics = before ++ shown :: after ∧
    ∀ earlier ∈ before, ¬ Same earlier shown

theorem distinct_keepsFirst (diagnostics : List Diagnostic) :
    KeepsFirst (distinct diagnostics) diagnostics where
  sublist := distinctFrom_sublist [] diagnostics
  different := List.pairwise_map.mp (distinctFrom_nodup [] diagnostics)
  complete := by
    intro problem isListed
    have isKept : problem.identity ∈ (distinct diagnostics).map identity := by
      rw [distinct, identity_mem_distinctFrom]
      exact ⟨List.mem_map_of_mem isListed, List.not_mem_nil⟩
    obtain ⟨shown, isShown, sameIdentity⟩ := List.mem_map.mp isKept
    exact ⟨shown, isShown, sameIdentity.symm⟩
  first := by
    intro shown isShown
    obtain ⟨_, isFirst⟩ := (mem_distinctFrom_iff [] diagnostics shown).mp isShown
    obtain ⟨_, before, after, split, noneEarlier⟩ := List.find?_eq_some_iff_append.mp isFirst
    refine ⟨before, after, split, ?_⟩
    intro earlier isEarlier
    simpa [Same] using noneEarlier earlier isEarlier

/-- Lists with the same identities, however often, have the same distinct problems. -/
theorem distinct_sameProblems {left right : List Diagnostic}
    (sameIdentities : ∀ id, id ∈ left.map identity ↔ id ∈ right.map identity) :
    SameProblems (distinct left) (distinct right) := by
  rw [sameProblems_iff_perm, distinct, distinct,
    List.perm_ext_iff_of_nodup (distinctFrom_nodup _ _) (distinctFrom_nodup _ _)]
  intro id
  rw [identity_mem_distinctFrom, identity_mem_distinctFrom, sameIdentities]

end Diagnostic

theorem Kind.mem_all (kind : Kind) : kind ∈ all := by cases kind <;> decide

namespace FileReport

open Diagnostic

/-- What a file shows depends, up to reordering, only on what its slots hold. -/
theorem merged_sameProblems {left right : FileReport}
    (sameSlots : ∀ kind, SameProblems (left.slot kind) (right.slot kind)) :
    SameProblems left.merged right.merged := by
  have slotMembers (kind : Kind) (id : Identity) :
      id ∈ (left.slot kind).map identity ↔ id ∈ (right.slot kind).map identity :=
    ((sameProblems_iff_perm _ _).mp (sameSlots kind)).mem_iff
  apply distinct_sameProblems
  intro id
  simp only [List.map_flatMap, List.mem_flatMap, slotMembers]

/-- What the slots hold, one slot after the other. -/
def held (report : FileReport) : List Diagnostic :=
  report.compile ++ (report.externalLint ++ (report.typeInference ++ report.lint))

theorem merged_eq_distinct_held (report : FileReport) : report.merged = distinct report.held := by
  simp [merged, Kind.all, slot, held]

theorem mem_held_of_mem_slot (report : FileReport) {kind : Kind} {diagnostic : Diagnostic}
    (isHeld : diagnostic ∈ report.slot kind) : diagnostic ∈ report.held := by
  cases kind <;> simp_all [held, slot]

/-- The merged list is a part of the slots one after the other. No two diagnostics in it are the
same, each diagnostic of each slot has one there that is the same, and what is there is the first of
its kind, with the source and payload of the first producer. Which problems it shows depends only on
which problems the slots hold and how often, whatever the order in a slot and whichever slot. -/
theorem merged_keeps_first_of_each_problem (report : FileReport) :
    report.merged.Sublist report.held ∧
    (report.merged.Pairwise fun earlier later => ¬ Same earlier later) ∧
    (∀ kind, ∀ problem ∈ report.slot kind, ∃ shown ∈ report.merged, Same problem shown) ∧
    (∀ shown ∈ report.merged, ∃ before after, report.held = before ++ shown :: after ∧
      ∀ earlier ∈ before, ¬ Same earlier shown) ∧
    (∀ other : FileReport, SameProblems report.held other.held →
      SameProblems report.merged other.merged) ∧
    ∀ left right, Same left right ↔
      left.code = right.code ∧ left.message = right.message ∧ left.severity = right.severity ∧
        left.range = right.range ∧ ∀ tag, tag ∈ left.tags ↔ tag ∈ right.tags := by
  have keepsFirst : KeepsFirst report.merged report.held :=
    report.merged_eq_distinct_held ▸ distinct_keepsFirst report.held
  refine ⟨keepsFirst.sublist, keepsFirst.different, ?_, keepsFirst.first, ?_, same_iff⟩
  · intro kind problem isHeld
    exact keepsFirst.complete problem (report.mem_held_of_mem_slot isHeld)
  · intro other sameHeld
    rw [merged_eq_distinct_held, merged_eq_distinct_held]
    exact distinct_sameProblems fun id => ((sameProblems_iff_perm _ _).mp sameHeld).mem_iff

theorem changes_eq_false_iff (report : FileReport) (kind : Kind) (diagnostics : List Diagnostic) :
    report.changes kind diagnostics = false ↔ SameProblems (report.slot kind) diagnostics := by
  rw [changes, Bool.not_eq_false', sameContents_iff]

theorem slot_setSlot (report : FileReport) (kind wanted : Kind) (diagnostics : List Diagnostic) :
    (report.setSlot kind diagnostics).slot wanted =
      if wanted = kind then diagnostics else report.slot wanted := by
  cases kind <;> cases wanted <;> rfl

theorem ext_slot {left right : FileReport} (sameSlots : ∀ kind, left.slot kind = right.slot kind) :
    left = right := by
  obtain ⟨compile, externalLint, typeInference, lint⟩ := left
  have compileSame := sameSlots .compile
  have externalLintSame := sameSlots .externalLint
  have typeInferenceSame := sameSlots .typeInference
  have lintSame := sameSlots .lint
  dsimp only [slot] at compileSame externalLintSame typeInferenceSame lintSame
  rw [compileSame, externalLintSame, typeInferenceSame, lintSame]

/-- Replacing a slot without changing its contents leaves what the file shows. -/
theorem merged_setSlot_of_unchanged {report : FileReport} {kind : Kind}
    {diagnostics : List Diagnostic} (unchanged : report.changes kind diagnostics = false) :
    SameProblems report.merged (report.setSlot kind diagnostics).merged := by
  apply merged_sameProblems
  intro other
  rw [slot_setSlot]
  split
  next isKind => exact isKind ▸ (changes_eq_false_iff _ _ _).mp unchanged
  next => exact .refl _

theorem isEmpty_iff (report : FileReport) : report.isEmpty = true ↔ report = empty := by
  obtain ⟨compile, externalLint, typeInference, lint⟩ := report
  simp [isEmpty, Kind.all, slot, empty]

theorem slot_empty (kind : Kind) : empty.slot kind = [] := by
  cases kind <;> rfl

theorem isEmpty_iff_slots (report : FileReport) :
    report.isEmpty = true ↔ ∀ kind, report.slot kind = [] := by
  rw [isEmpty_iff]
  constructor
  · intro isEmpty kind
    rw [isEmpty, slot_empty]
  · intro slotsEmpty
    apply ext_slot
    intro kind
    rw [slotsEmpty, slot_empty]

theorem merged_empty : empty.merged = [] := rfl

theorem exists_slot_of_mem_merged {report : FileReport} {diagnostic : Diagnostic}
    (isMerged : diagnostic ∈ report.merged) : ∃ kind, diagnostic ∈ report.slot kind := by
  have isListed := (distinctFrom_sublist [] _).subset isMerged
  obtain ⟨kind, _, isHeld⟩ := List.mem_flatMap.mp isListed
  exact ⟨kind, isHeld⟩

end FileReport

end ElmDiagnostics
