import Mathlib.Data.List.Induction

/-!
Contract: lists that grow at their end, seen place by place.

Owns: where the marked items of a list can stand, and what it means that every item goes with those
before it.

Histories and runs are such lists. What holds at each of their places is proved by adding one item
at a time.
-/

set_option autoImplicit false

namespace ElmDiagnostics

variable {α : Type}

/-- The item that is marked in a list is its last one, or the last one comes after it. -/
theorem concat_eq_append_cons {items before since : List α} {last marked : α}
    (split : items ++ [last] = before ++ marked :: since) :
    (items = before ∧ last = marked ∧ since = []) ∨
      ∃ earlier, items = before ++ marked :: earlier ∧ since = earlier ++ [last] := by
  rcases List.eq_nil_or_concat since with rfl | ⟨earlier, final, rfl⟩
  · obtain ⟨sameItems, sameLast⟩ := List.append_inj' split rfl
    exact .inl ⟨sameItems, (List.cons.inj sameLast).1, rfl⟩
  · rw [List.concat_eq_append, ← List.cons_append, ← List.append_assoc] at split
    obtain ⟨sameItems, sameLast⟩ := List.append_inj' split rfl
    rw [List.concat_eq_append, sameLast]
    exact .inr ⟨earlier, sameItems, rfl⟩

/-- Of two marked items, the one after which the other does not come is the later one. -/
theorem mem_of_append_cons_eq {before since earlier rest : List α} {marked other : α}
    (split : before ++ marked :: since = earlier ++ other :: rest)
    (notAfter : marked ∉ other :: rest) : other ∈ since := by
  rcases List.append_eq_append_iff.mp split with ⟨between, _, remaining⟩ | ⟨between, _, remaining⟩
  · cases between with
    | nil =>
        obtain ⟨sameItem, _⟩ := List.cons.inj remaining
        exact absurd (sameItem ▸ List.mem_cons_self ..) notAfter
    | cons item between =>
        obtain ⟨_, rfl⟩ := List.cons.inj remaining
        exact List.mem_append_right _ (List.mem_cons_self ..)
  · exact absurd (remaining ▸ List.mem_append_right _ (List.mem_cons_self ..)) notAfter

/-- At every place of the list, the item there goes with the items before it. -/
def AtEach (goesWith : List α → α → Prop) (items : List α) : Prop :=
  ∀ before item since, items = before ++ item :: since → goesWith before item

theorem atEach_nil (goesWith : List α → α → Prop) : AtEach goesWith [] := by
  intro before item since split
  exact absurd split.symm (by simp)

theorem atEach_concat_iff (goesWith : List α → α → Prop) (items : List α) (last : α) :
    AtEach goesWith (items ++ [last]) ↔ AtEach goesWith items ∧ goesWith items last := by
  constructor
  · intro atEach
    refine ⟨?_, atEach items last [] rfl⟩
    intro before item since split
    apply atEach before item (since ++ [last])
    rw [split, List.append_assoc, List.cons_append]
  · rintro ⟨atEarlier, atLast⟩ before item since split
    rcases concat_eq_append_cons split with ⟨rfl, rfl, _⟩ | ⟨earlier, sameItems, _⟩
    · exact atLast
    · exact atEarlier before item earlier sameItems

end ElmDiagnostics
