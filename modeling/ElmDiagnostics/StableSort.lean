/-!
Contract: sorting that keeps the order of elements the comparison does not separate.

Owns: stable insertion sort by a Boolean comparison, that it only reorders, and that its result is
in order.
-/

set_option autoImplicit false

namespace ElmDiagnostics

universe u

/-- Puts `item` in front of the first element that it does not come after. -/
def insertSorted {α : Type u} (le : α → α → Bool) (item : α) : List α → List α
  | [] => [item]
  | head :: rest => if le item head then item :: head :: rest else head :: insertSorted le item rest

/-- The elements of a list in the order of `le`, equal ones in the order they had. -/
def stableSort {α : Type u} (le : α → α → Bool) : List α → List α
  | [] => []
  | head :: rest => insertSorted le head (stableSort le rest)

theorem insertSorted_perm {α : Type u} (le : α → α → Bool) (item : α) :
    ∀ items : List α, (insertSorted le item items).Perm (item :: items)
  | [] => .refl _
  | head :: rest => by
      by_cases goesFirst : le item head
      · simp [insertSorted, goesFirst]
      · simpa [insertSorted, goesFirst] using
          ((insertSorted_perm le item rest).cons head).trans (.swap item head rest)

theorem stableSort_perm {α : Type u} (le : α → α → Bool) :
    ∀ items : List α, (stableSort le items).Perm items
  | [] => .refl _
  | head :: rest =>
      (insertSorted_perm le head (stableSort le rest)).trans ((stableSort_perm le rest).cons head)

theorem insertSorted_pairwise {α : Type u} {le : α → α → Bool}
    (total : ∀ first second, le first second = true ∨ le second first = true)
    (trans : ∀ first second third, le first second = true → le second third = true →
      le first third = true) (item : α) :
    ∀ items : List α, items.Pairwise (fun earlier later => le earlier later = true) →
      (insertSorted le item items).Pairwise fun earlier later => le earlier later = true
  | [], _ => List.pairwise_singleton _ item
  | head :: rest, sorted => by
      obtain ⟨headFirst, restSorted⟩ := List.pairwise_cons.mp sorted
      unfold insertSorted
      split
      next goesFirst =>
        refine List.pairwise_cons.mpr ⟨fun later isLater => ?_, sorted⟩
        rcases List.mem_cons.mp isLater with rfl | isRest
        · exact goesFirst
        · exact trans _ _ _ goesFirst (headFirst later isRest)
      next goesLater =>
        have insertedSorted := insertSorted_pairwise total trans item rest restSorted
        refine List.pairwise_cons.mpr ⟨fun later isLater => ?_, insertedSorted⟩
        have isMember := (insertSorted_perm le item rest).mem_iff.mp isLater
        rcases List.mem_cons.mp isMember with rfl | isRest
        · exact (total later head).resolve_left goesLater
        · exact headFirst later isRest

theorem stableSort_pairwise {α : Type u} {le : α → α → Bool}
    (total : ∀ first second, le first second = true ∨ le second first = true)
    (trans : ∀ first second third, le first second = true → le second third = true →
      le first third = true) :
    ∀ items : List α, (stableSort le items).Pairwise fun earlier later => le earlier later = true
  | [] => .nil
  | head :: rest =>
      insertSorted_pairwise total trans head _ (stableSort_pairwise total trans rest)

end ElmDiagnostics
