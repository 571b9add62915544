import ElmDiagnostics.Proofs.Diagnostic.Contents
import Mathlib.Data.List.Count

/-!
Contract: comparing two lists of diagnostics is comparing how often each problem occurs in them.

Owns: occurrences of a problem up to identity; that equal occurrences are what the comparison
decides; that it is an equivalence and blind to order and to how a problem is shown; and what every
counter holds while one list is taken off the other.

Does not own: the tally and its single steps, and what is done with the answer.

The comparison takes the second list off the counts of the first and looks for what is missing
there. What the second list lacks it finds by the lengths alone.
-/

set_option autoImplicit false

namespace ElmDiagnostics

namespace Diagnostic

/-! ### Occurrences -/

/-- How often a problem occurs in a list, whatever stands for it there. -/
def occurrences (problem : Diagnostic) (diagnostics : List Diagnostic) : Nat :=
  diagnostics.countP fun diagnostic => decide (Same problem diagnostic)

theorem occurrences_eq_count (problem : Diagnostic) (diagnostics : List Diagnostic) :
    occurrences problem diagnostics = (diagnostics.map identity).count problem.identity := by
  rw [occurrences, List.count, List.countP_map]
  refine List.countP_congr ?_
  intro diagnostic _
  rw [Function.comp_apply, decide_eq_true_iff, beq_iff_eq, Same, eq_comm]

/-- The comparison decides whether every problem occurs equally often. -/
theorem sameContents_iff_occurrences (old new : List Diagnostic) :
    sameContents old new = true ↔
      ∀ problem, occurrences problem old = occurrences problem new := by
  rw [sameContents_iff, sameProblems_iff_perm, List.perm_iff_count]
  simp only [occurrences_eq_count]
  constructor
  · intro equallyOften problem
    exact equallyOften problem.identity
  · intro equallyOften id
    by_cases occurs : id ∈ old.map identity ++ new.map identity
    · rw [← List.map_append] at occurs
      obtain ⟨problem, _, rfl⟩ := List.mem_map.mp occurs
      exact equallyOften problem
    · rw [List.mem_append, not_or] at occurs
      rw [List.count_eq_zero_of_not_mem occurs.1, List.count_eq_zero_of_not_mem occurs.2]

/-! ### Equivalence -/

theorem sameContents_equivalence :
    Equivalence fun old new : List Diagnostic => sameContents old new = true := by
  simp only [sameContents_iff]
  exact ⟨SameProblems.refl, SameProblems.symm, SameProblems.trans⟩

/-- Each list may be replaced by one with the same problems. -/
theorem sameContents_congr {old new otherOld otherNew : List Diagnostic}
    (sameOld : SameProblems old otherOld) (sameNew : SameProblems new otherNew) :
    sameContents otherOld otherNew = sameContents old new := by
  rw [Bool.eq_iff_iff, sameContents_iff, sameContents_iff]
  constructor
  · intro same
    exact (sameOld.trans same).trans sameNew.symm
  · intro same
    exact (sameOld.symm.trans same).trans sameNew

theorem sameProblems_of_perm {left right : List Diagnostic} (reordered : left.Perm right) :
    SameProblems left right :=
  (sameProblems_iff_perm left right).mpr (reordered.map identity)

/-- The same problem shown otherwise: with another source or payload, or with its tags in another
order or repeated. -/
def Restyled (diagnostic restyled : Diagnostic) : Prop :=
  ∃ tags source data, (∀ tag, tag ∈ tags ↔ tag ∈ diagnostic.tags) ∧
    restyled = { diagnostic with tags, source, data }

theorem Restyled.refl (diagnostic : Diagnostic) : Restyled diagnostic diagnostic :=
  ⟨diagnostic.tags, diagnostic.source, diagnostic.data, fun _ => .rfl, rfl⟩

theorem Restyled.same {diagnostic restyled : Diagnostic}
    (isRestyled : Restyled diagnostic restyled) :
    Same diagnostic restyled := by
  obtain ⟨tags, source, data, sameTags, rfl⟩ := isRestyled
  rw [same_iff]
  exact ⟨rfl, rfl, rfl, rfl, fun tag => (sameTags tag).symm⟩

theorem sameProblems_of_restyled {left right : List Diagnostic}
    (restyled : List.Forall₂ Restyled left right) : SameProblems left right :=
  ⟨left, .refl left, restyled.imp fun _ _ => Restyled.same⟩

end Diagnostic

/-! ### Counters -/

namespace Tally

open Diagnostic

/-- What is left of a counter and what was taken off it make up what it was. -/
theorem count_of_takeAll? {tally after : Tally} {handled : List Diagnostic}
    (takes : tally.takeAll? handled = some after) (problem : Diagnostic) :
    tally.count problem.identity =
      after.count problem.identity + occurrences problem handled := by
  induction handled generalizing tally with
  | nil =>
      obtain rfl : tally = after := Option.some.inj takes
      simp [occurrences]
  | cons diagnostic rest inductionHypothesis =>
      rw [takeAll?_cons] at takes
      obtain ⟨between, takesOne, takesRest⟩ := Option.bind_eq_some_iff.mp takes
      have ofOne := count_of_take? problem.identity takesOne
      have ofRest := inductionHypothesis takesRest
      have atHead : occurrences problem (diagnostic :: rest) = occurrences problem rest +
          if problem.identity = diagnostic.identity then 1 else 0 := by
        simp only [occurrences, List.countP_cons, decide_eq_true_eq]
        rfl
      omega

/-- While a list is taken off the tally of another, every counter is the difference of occurrences,
and one more can be taken off exactly while this is positive. -/
theorem counter_eq_difference {old handled : List Diagnostic} {tally : Tally}
    (takes : (ofList old).takeAll? handled = some tally) (problem : Diagnostic) :
    (tally.count problem.identity : Int) = occurrences problem old - occurrences problem handled ∧
      ((tally.take? problem.identity).isSome ↔
        (0 : Int) < occurrences problem old - occurrences problem handled) := by
  have ofOld := count_ofList old problem.identity
  have ofHandled := count_of_takeAll? takes problem
  rw [← occurrences_eq_count] at ofOld
  rw [take?_isSome_iff]
  omega

end Tally

namespace Diagnostic

/-- The comparison of two lists is exact: it holds if and only if every problem occurs equally often
in both. It is thus reflexive, symmetric and transitive, and neither the order of a list nor how its
problems are shown matters to it. At every point of the comparison each counter is the number of
occurrences in the old list less those already taken off, which is never negative, and the
comparison goes on with a problem exactly while its counter is positive. -/
theorem comparison_is_exact :
    (∀ old new, sameContents old new = true ↔
      ∀ problem, occurrences problem old = occurrences problem new) ∧
    (Equivalence fun old new : List Diagnostic => sameContents old new = true) ∧
    (∀ old new reorderedOld reorderedNew : List Diagnostic,
      old.Perm reorderedOld → new.Perm reorderedNew →
        sameContents reorderedOld reorderedNew = sameContents old new) ∧
    (∀ old new restyledOld restyledNew : List Diagnostic,
      List.Forall₂ Restyled old restyledOld → List.Forall₂ Restyled new restyledNew →
        sameContents restyledOld restyledNew = sameContents old new) ∧
    ∀ old handled tally, (Tally.ofList old).takeAll? handled = some tally → ∀ problem,
      (0 : Int) ≤ occurrences problem old - occurrences problem handled ∧
      (tally.count problem.identity : Int) = occurrences problem old - occurrences problem handled ∧
      ((tally.take? problem.identity).isSome ↔
        (0 : Int) < occurrences problem old - occurrences problem handled) := by
  refine ⟨sameContents_iff_occurrences, sameContents_equivalence, ?_, ?_, ?_⟩
  · intro old new reorderedOld reorderedNew oldReordered newReordered
    exact sameContents_congr (sameProblems_of_perm oldReordered) (sameProblems_of_perm newReordered)
  · intro old new restyledOld restyledNew oldRestyled newRestyled
    exact sameContents_congr (sameProblems_of_restyled oldRestyled)
      (sameProblems_of_restyled newRestyled)
  · intro old handled tally takes problem
    obtain ⟨isDifference, goesOn⟩ := Tally.counter_eq_difference takes problem
    exact ⟨isDifference ▸ Int.natCast_nonneg _, isDifference, goesOn⟩

namespace Retold

def unusedName : Diagnostic :=
  (new "unused_pattern" "Unused pattern variable" .warning default).withTag .unnecessary

/-- The same problem from another source, with a payload and its tag repeated. -/
def unusedElsewhere : Diagnostic :=
  { unusedName with tags := [.unnecessary, .unnecessary], source := "review", data := some .null }

def booleanCase : Diagnostic := new "boolean_case_expr" "Use an if expression" .warning default

theorem restyled_elsewhere : Restyled unusedName unusedElsewhere := by
  refine ⟨[.unnecessary, .unnecessary], "review", some .null, ?_, rfl⟩
  intro tag
  cases tag <;> decide

theorem retold_problem_compared_exactly :
    [unusedName, booleanCase].Perm [booleanCase, unusedName] ∧
    sameContents [booleanCase, unusedName] [unusedName, booleanCase] = true ∧
    List.Forall₂ Restyled [unusedName, unusedName] [unusedName, unusedElsewhere] ∧
    sameContents [unusedName, unusedElsewhere] [unusedName, unusedName] = true ∧
    ∃ tally, (Tally.ofList [unusedName, unusedName]).takeAll? [unusedElsewhere] = some tally ∧
      (tally.count unusedName.identity : Int) = 2 - 1 := by
  obtain ⟨_, equivalence, reordered, restyled, counters⟩ := comparison_is_exact
  have swapped : [unusedName, booleanCase].Perm [booleanCase, unusedName] := .swap _ _ _
  have retold : List.Forall₂ Restyled [unusedName, unusedName] [unusedName, unusedElsewhere] :=
    .cons (.refl _) (.cons restyled_elsewhere .nil)
  have plain : List.Forall₂ Restyled [unusedName, unusedName] [unusedName, unusedName] :=
    List.forall₂_same.mpr fun diagnostic _ => .refl diagnostic
  have heldTwice : occurrences unusedName [unusedName, unusedName] = 2 := by decide
  have takenOnce : occurrences unusedName [unusedElsewhere] = 1 := by decide
  refine ⟨swapped, ?_, retold, ?_, _, rfl, ?_⟩
  · rw [reordered _ _ _ _ swapped (.refl _)]
    exact equivalence.refl _
  · rw [restyled _ _ _ _ retold plain]
    exact equivalence.refl _
  · have left := (counters [unusedName, unusedName] [unusedElsewhere] _ rfl unusedName).2.1
    rwa [heldTwice, takenOnce] at left

end Retold

end Diagnostic

end ElmDiagnostics
