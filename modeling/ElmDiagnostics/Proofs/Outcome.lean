import Mathlib.Data.List.Forall2

/-!
Contract: taking a computation that may fail apart, once it is known to have succeeded.

Owns: the steps of a sequence, the items behind the results of a list of computations, the success
of such a list as that of every item, how the results of two such lists compare, and that what can
be read back is not confused.
-/

set_option autoImplicit false

namespace ElmDiagnostics

/-- What a reader tells apart was written differently. -/
theorem injective_of_readBack {α β : Type} {write : α → β} {read? : β → Option α}
    (readBack : ∀ value, read? (write value) = some value) : Function.Injective write := by
  intro value other sameText
  have readAs := readBack value
  rw [sameText, readBack] at readAs
  exact (Option.some.inj readAs).symm

theorem bind_eq_ok {ε α β : Type} {first : Except ε α} {next : α → Except ε β} {result : β}
    (succeeds : first >>= next = .ok result) :
    ∃ value, first = .ok value ∧ next value = .ok result := by
  cases first with
  | error cause => exact absurd succeeds (by simp [bind, Except.bind])
  | ok value => exact ⟨value, rfl, succeeds⟩

theorem exists_of_mem_mapM {ε α β : Type} {compute : α → Except ε β} {items : List α}
    {results : List β} (succeeds : items.mapM compute = .ok results) :
    ∀ result ∈ results, ∃ item ∈ items, compute item = .ok result := by
  induction items generalizing results with
  | nil =>
      cases succeeds
      simp
  | cons item rest inductionHypothesis =>
      rw [List.mapM_cons] at succeeds
      obtain ⟨first, computed, computingRest⟩ := bind_eq_ok succeeds
      obtain ⟨others, computedRest, returned⟩ := bind_eq_ok computingRest
      cases returned
      intro result isResult
      rcases List.mem_cons.mp isResult with rfl | isOther
      · exact ⟨item, List.mem_cons_self .., computed⟩
      · obtain ⟨source, isSource, itsResult⟩ := inductionHypothesis computedRest result isOther
        exact ⟨source, List.mem_cons_of_mem _ isSource, itsResult⟩

theorem exists_of_mapM {ε α β : Type} {compute : α → Except ε β} {items : List α}
    {results : List β} (succeeds : items.mapM compute = .ok results) :
    ∀ item ∈ items, ∃ result, compute item = .ok result := by
  induction items generalizing results with
  | nil => simp
  | cons item rest inductionHypothesis =>
      rw [List.mapM_cons] at succeeds
      obtain ⟨first, computed, computingRest⟩ := bind_eq_ok succeeds
      obtain ⟨others, computedRest, _⟩ := bind_eq_ok computingRest
      intro other isItem
      rcases List.mem_cons.mp isItem with rfl | isOther
      · exact ⟨first, computed⟩
      · exact inductionHypothesis computedRest other isOther

theorem exists_mapM_of_each {ε α β : Type} {compute : α → Except ε β} {items : List α}
    (each : ∀ item ∈ items, ∃ result, compute item = .ok result) :
    ∃ results, items.mapM compute = .ok results := by
  induction items with
  | nil => exact ⟨[], rfl⟩
  | cons item rest inductionHypothesis =>
      obtain ⟨⟨first, computed⟩, eachOther⟩ := List.forall_mem_cons.mp each
      obtain ⟨others, computedRest⟩ := inductionHypothesis eachOther
      refine ⟨first :: others, ?_⟩
      rw [List.mapM_cons, computed, computedRest]
      rfl

theorem mapM_eq_ok {ε α β : Type} {compute : α → Except ε β} {value : α → β} {items : List α}
    (each : ∀ item ∈ items, compute item = .ok (value item)) :
    items.mapM compute = .ok (items.map value) := by
  induction items with
  | nil => rfl
  | cons item rest inductionHypothesis =>
      have computedRest := inductionHypothesis fun other isOther =>
        each other (List.mem_cons_of_mem _ isOther)
      rw [List.mapM_cons, each item (List.mem_cons_self ..), computedRest]
      rfl

/-- Results are related one by one when computations on related items have related results. -/
theorem forall₂_of_mapM {ε α β γ δ : Type} {first : α → Except ε β} {second : γ → Except ε δ}
    {items : List α} {others : List γ} {related : α → γ → Prop} {agree : β → δ → Prop}
    (itemsRelated : List.Forall₂ related items others)
    (each : ∀ {item other}, related item other → ∀ {result otherResult},
      first item = .ok result → second other = .ok otherResult → agree result otherResult)
    {results : List β} {otherResults : List δ} (succeeds : items.mapM first = .ok results)
    (otherSucceeds : others.mapM second = .ok otherResults) :
    List.Forall₂ agree results otherResults := by
  induction itemsRelated generalizing results otherResults with
  | nil =>
      cases succeeds
      cases otherSucceeds
      exact .nil
  | cons areRelated _ inductionHypothesis =>
      rw [List.mapM_cons] at succeeds otherSucceeds
      obtain ⟨result, computed, computingRest⟩ := bind_eq_ok succeeds
      obtain ⟨later, computedRest, returned⟩ := bind_eq_ok computingRest
      obtain ⟨otherResult, otherComputed, computingOthers⟩ := bind_eq_ok otherSucceeds
      obtain ⟨otherLater, computedOthers, otherReturned⟩ := bind_eq_ok computingOthers
      cases returned
      cases otherReturned
      exact .cons (each areRelated computed otherComputed)
        (inductionHypothesis computedRest computedOthers)

end ElmDiagnostics
