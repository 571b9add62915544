/-!
Contract: finite maps whose entries stand in increasing key order.

Owns: `Table`, its look-up, insertion and removal, one look-up equation for each
operation, and extensionality: tables that look up the same are equal.

The order is part of the type, so the keys of a table are already sorted and two
histories that store the same values end in the same table.
-/

set_option autoImplicit false

namespace ElmDiagnostics

/-- A finite map from `κ` to `α`, as entries in strictly increasing key order. -/
structure Table (κ α : Type) [LT κ] where
  entries : List (κ × α)
  increasing : entries.Pairwise fun earlier later => earlier.1 < later.1

namespace Table

variable {κ α : Type}

/-! ### Entries -/

section Entries

variable [LT κ]

/-- Stores `value` under `key`, in the place of an earlier value of that key. -/
def insertEntry [DecidableLT κ] (key : κ) (value : α) : List (κ × α) → List (κ × α)
  | [] => [(key, value)]
  | (otherKey, otherValue) :: rest =>
      if key < otherKey then (key, value) :: (otherKey, otherValue) :: rest
      else if otherKey < key then (otherKey, otherValue) :: insertEntry key value rest
      else (key, value) :: rest

theorem key_of_mem_insertEntry [DecidableLT κ] {key : κ} {value : α} {entry : κ × α} :
    ∀ {entries : List (κ × α)}, entry ∈ insertEntry key value entries →
      entry.1 = key ∨ entry ∈ entries
  | [], member => by simp_all [insertEntry]
  | (otherKey, otherValue) :: rest, member => by
      unfold insertEntry at member
      split at member
      · rcases List.mem_cons.mp member with rfl | inOld
        · exact .inl rfl
        · exact .inr inOld
      · split at member
        · rcases List.mem_cons.mp member with rfl | inRest
          · exact .inr (List.mem_cons_self ..)
          · rcases key_of_mem_insertEntry inRest with sameKey | inOld
            · exact .inl sameKey
            · exact .inr (List.mem_cons_of_mem _ inOld)
        · rcases List.mem_cons.mp member with rfl | inOld
          · exact .inl rfl
          · exact .inr (List.mem_cons_of_mem _ inOld)

variable [LE κ] [Std.IsLinearOrder κ] [Std.LawfulOrderLT κ]

theorem eq_of_not_lt {left right : κ} (notBelow : ¬ left < right) (notAbove : ¬ right < left) :
    left = right :=
  Std.le_antisymm (Std.not_lt.mp notAbove) (Std.not_lt.mp notBelow)

theorem insertEntry_increasing [DecidableLT κ] (key : κ) (value : α) :
    ∀ {entries : List (κ × α)}, entries.Pairwise (fun earlier later => earlier.1 < later.1) →
      (insertEntry key value entries).Pairwise fun earlier later => earlier.1 < later.1
  | [], _ => by simp [insertEntry]
  | (otherKey, otherValue) :: rest, increasing => by
      obtain ⟨headBelow, restIncreasing⟩ := List.pairwise_cons.mp increasing
      unfold insertEntry
      split
      next below =>
        refine List.pairwise_cons.mpr ⟨fun entry member => ?_, increasing⟩
        rcases List.mem_cons.mp member with rfl | inRest
        · exact below
        · exact Std.lt_trans below (headBelow entry inRest)
      next notBelow =>
        split
        next above =>
          refine List.pairwise_cons.mpr ⟨fun entry member => ?_, ?_⟩
          · rcases key_of_mem_insertEntry member with sameKey | inRest
            · exact sameKey ▸ above
            · exact headBelow entry inRest
          · exact insertEntry_increasing key value restIncreasing
        next notAbove =>
          have sameKey := eq_of_not_lt notBelow notAbove
          exact List.pairwise_cons.mpr
            ⟨fun entry inRest => sameKey ▸ headBelow entry inRest, restIncreasing⟩

/-- Increasing lists with the same members are equal. -/
theorem eq_of_mem_iff : ∀ {first second : List (κ × α)},
    first.Pairwise (fun earlier later => earlier.1 < later.1) →
    second.Pairwise (fun earlier later => earlier.1 < later.1) →
    (∀ entry, entry ∈ first ↔ entry ∈ second) → first = second
  | [], [], _, _, _ => rfl
  | [], head :: rest, _, _, members => absurd ((members head).mpr (List.mem_cons_self ..)) (by simp)
  | head :: rest, [], _, _, members => absurd ((members head).mp (List.mem_cons_self ..)) (by simp)
  | head :: rest, otherHead :: otherRest, firstIncreasing, secondIncreasing, members => by
      obtain ⟨headBelow, restIncreasing⟩ := List.pairwise_cons.mp firstIncreasing
      obtain ⟨otherBelow, otherIncreasing⟩ := List.pairwise_cons.mp secondIncreasing
      have sameHead : head = otherHead := by
        rcases List.mem_cons.mp ((members head).mp (List.mem_cons_self ..)) with same | inOther
        · exact same
        · rcases List.mem_cons.mp ((members otherHead).mpr (List.mem_cons_self ..)) with same | inRest
          · exact same.symm
          · exact absurd (Std.lt_trans (headBelow _ inRest) (otherBelow _ inOther)) Std.lt_irrefl
      subst sameHead
      congr 1
      refine eq_of_mem_iff restIncreasing otherIncreasing fun entry =>
        ⟨fun inRest => ?_, fun inOther => ?_⟩
      · rcases List.mem_cons.mp ((members entry).mp (List.mem_cons_of_mem _ inRest)) with same | found
        · exact absurd (same ▸ headBelow _ inRest) Std.lt_irrefl
        · exact found
      · rcases List.mem_cons.mp ((members entry).mpr (List.mem_cons_of_mem _ inOther)) with same | found
        · exact absurd (same ▸ otherBelow _ inOther) Std.lt_irrefl
        · exact found

end Entries

/-! ### Look-up in entries -/

section Lookup

variable [DecidableEq κ]

theorem lookup_filter_ne (key wanted : κ) :
    ∀ entries : List (κ × α), (entries.filter fun entry => entry.1 ≠ key).lookup wanted =
      if wanted = key then none else entries.lookup wanted
  | [] => by simp
  | (otherKey, otherValue) :: rest => by
      by_cases removed : otherKey = key
      · subst removed
        by_cases isKey : wanted = otherKey
        · simpa [isKey] using lookup_filter_ne otherKey otherKey rest
        · simpa [List.lookup_cons, isKey, beq_false_of_ne isKey] using
            lookup_filter_ne otherKey wanted rest
      · by_cases isOther : wanted = otherKey
        · subst isOther
          simp [removed]
        · simpa [List.lookup_cons, removed, beq_false_of_ne isOther] using
            lookup_filter_ne key wanted rest

theorem mem_of_lookup_eq_some {key : κ} {value : α} :
    ∀ {entries : List (κ × α)}, entries.lookup key = some value → (key, value) ∈ entries
  | (otherKey, otherValue) :: rest, found => by
      by_cases isHead : key = otherKey
      · subst isHead
        simp_all
      · rw [List.lookup_cons, beq_false_of_ne isHead] at found
        exact List.mem_cons_of_mem _ (mem_of_lookup_eq_some found)

variable [LT κ] [LE κ] [Std.LawfulOrderLT κ]

theorem lookup_eq_some_of_mem {key : κ} {value : α} :
    ∀ {entries : List (κ × α)}, entries.Pairwise (fun earlier later => earlier.1 < later.1) →
      (key, value) ∈ entries → entries.lookup key = some value
  | (otherKey, otherValue) :: rest, increasing, member => by
      obtain ⟨headBelow, restIncreasing⟩ := List.pairwise_cons.mp increasing
      rcases List.mem_cons.mp member with isHead | inRest
      · cases isHead
        simp
      · have below := headBelow _ inRest
        have different : key ≠ otherKey := fun same => Std.lt_irrefl (same ▸ below)
        simpa [List.lookup_cons, beq_false_of_ne different] using
          lookup_eq_some_of_mem restIncreasing inRest

variable [Std.IsLinearOrder κ] [DecidableLT κ]

theorem lookup_insertEntry (key wanted : κ) (value : α) :
    ∀ entries : List (κ × α), (insertEntry key value entries).lookup wanted =
      if wanted = key then some value else entries.lookup wanted
  | [] => by
      by_cases isKey : wanted = key
      · simp [insertEntry, isKey]
      · simp [insertEntry, List.lookup_cons, isKey, beq_false_of_ne isKey]
  | (otherKey, otherValue) :: rest => by
      unfold insertEntry
      split
      next below =>
        by_cases isKey : wanted = key
        · simp [isKey]
        · simp [List.lookup_cons, isKey, beq_false_of_ne isKey]
      next notBelow =>
        split
        next above =>
          have different : key ≠ otherKey := fun same => Std.lt_irrefl (same ▸ above)
          by_cases isOther : wanted = otherKey
          · subst isOther
            simp [Ne.symm different]
          · simp [List.lookup_cons, beq_false_of_ne isOther, lookup_insertEntry key wanted value rest]
        next notAbove =>
          have sameKey := eq_of_not_lt notBelow notAbove
          subst sameKey
          by_cases isKey : wanted = key
          · simp [isKey]
          · simp [List.lookup_cons, isKey, beq_false_of_ne isKey]

end Lookup

/-! ### Tables -/

section Operations

variable [LT κ]

/-- The table without entries. -/
def empty : Table κ α := ⟨[], .nil⟩

instance : EmptyCollection (Table κ α) := ⟨empty⟩

instance : Inhabited (Table κ α) := ⟨empty⟩

/-- The keys, in increasing order. -/
def keys (table : Table κ α) : List κ := table.entries.map (·.1)

/-- The values, in the order of their keys. -/
def values (table : Table κ α) : List α := table.entries.map (·.2)

/-- The value stored under `key`. -/
def get? [DecidableEq κ] (table : Table κ α) (key : κ) : Option α := table.entries.lookup key

/-- Whether a value is stored under `key`. -/
def contains [DecidableEq κ] (table : Table κ α) (key : κ) : Bool := (table.get? key).isSome

/-- Forgets the value of `key`. -/
def erase [DecidableEq κ] (table : Table κ α) (key : κ) : Table κ α :=
  ⟨table.entries.filter fun entry => entry.1 ≠ key, table.increasing.filter _⟩

variable [LE κ] [Std.IsLinearOrder κ] [Std.LawfulOrderLT κ] [DecidableLT κ]

/-- Stores `value` under `key`; an earlier value of the key is lost. -/
def insert (table : Table κ α) (key : κ) (value : α) : Table κ α :=
  ⟨insertEntry key value table.entries, insertEntry_increasing key value table.increasing⟩

/-- Stores the pairs one after the other; the last value of a key stays. -/
def ofList (pairs : List (κ × α)) : Table κ α :=
  pairs.foldl (fun table pair => table.insert pair.1 pair.2) ∅

end Operations

/-! ### Keys -/

theorem keys_increasing [LT κ] (table : Table κ α) : table.keys.Pairwise (· < ·) := by
  rw [keys, List.pairwise_map]
  exact table.increasing

theorem keys_nodup [LT κ] [LE κ] [Std.LawfulOrderLT κ] (table : Table κ α) : table.keys.Nodup := by
  refine table.keys_increasing.imp ?_
  rintro key _ below rfl
  exact Std.lt_irrefl below

/-! ### Look-up equations -/

section Equations

variable [LT κ] [DecidableEq κ]

@[simp]
theorem get?_empty (key : κ) : (∅ : Table κ α).get? key = none := rfl

theorem get?_erase (table : Table κ α) (key wanted : κ) :
    (table.erase key).get? wanted = if wanted = key then none else table.get? wanted :=
  lookup_filter_ne key wanted table.entries

variable [LE κ] [Std.LawfulOrderLT κ]

/-- An entry stands in a table exactly when look-up finds it. -/
theorem mem_entries_iff (table : Table κ α) (key : κ) (value : α) :
    (key, value) ∈ table.entries ↔ table.get? key = some value :=
  ⟨lookup_eq_some_of_mem table.increasing, mem_of_lookup_eq_some⟩

/-- A key is listed exactly when a value is stored under it. -/
theorem mem_keys_iff (table : Table κ α) (key : κ) :
    key ∈ table.keys ↔ (table.get? key).isSome := by
  simp only [keys, List.mem_map, Option.isSome_iff_exists]
  constructor
  · rintro ⟨⟨otherKey, value⟩, member, rfl⟩
    exact ⟨value, (table.mem_entries_iff _ _).mp member⟩
  · rintro ⟨value, found⟩
    exact ⟨(key, value), (table.mem_entries_iff _ _).mpr found, rfl⟩

variable [Std.IsLinearOrder κ]

theorem get?_insert [DecidableLT κ] (table : Table κ α) (key wanted : κ) (value : α) :
    (table.insert key value).get? wanted = if wanted = key then some value else table.get? wanted :=
  lookup_insertEntry key wanted value table.entries

/-- Tables that look up the same values are equal. -/
theorem ext_get? {left right : Table κ α} (same : ∀ key, left.get? key = right.get? key) :
    left = right := by
  have sameEntries : left.entries = right.entries :=
    eq_of_mem_iff left.increasing right.increasing fun (key, value) => by
      rw [mem_entries_iff, mem_entries_iff, same]
  cases left
  cases right
  simpa using sameEntries

end Equations

end Table

end ElmDiagnostics
