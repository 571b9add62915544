/-!
Contract: a search for the nodes of a finite graph that can be reached from given ones.

Owns: `Search`, how far a search has come; its single visits; and `reachable`, what it has found
when nothing is left to visit.

Does not own: what it means for a node to be reached.

A node that is taken up is marked once and for all. Nodes met again are dropped, so every visit
takes a node off the list for good, or uses up the edges that leave it.
-/

set_option autoImplicit false

namespace ElmDiagnostics

/-- How far a search has come: the nodes it has marked, and those it still has to visit. -/
structure Search (α : Type) where
  marked : List α
  todo : List α
deriving DecidableEq, Repr

namespace Search

variable {α : Type}

/-- A search that has to visit the given nodes. -/
def start (todo : List α) : Search α := ⟨[], todo⟩

variable [DecidableEq α]

/-- The targets of the edges that leave `node`, each once. -/
def successors (edges : List (α × α)) (node : α) : List α :=
  ((edges.filter fun edge => edge.1 = node).map (·.2)).eraseDups

/-- Takes up the next node, if one is left. A node that is marked already is dropped. Any other is
marked, and its unmarked successors have to be visited as well. -/
def visit? (edges : List (α × α)) (search : Search α) : Option (Search α) :=
  match search.todo with
  | [] => none
  | node :: rest =>
      if node ∈ search.marked then some ⟨search.marked, rest⟩
      else
        let marked := node :: search.marked
        some ⟨marked, (successors edges node).filter (fun target => target ∉ marked) ++ rest⟩

/-! ### Termination -/

/-- A bound on the visits that are left: the nodes to visit, and the edges that leave unmarked
nodes. -/
def visitsLeft (edges : List (α × α)) (search : Search α) : Nat :=
  search.todo.length + (edges.filter fun edge => edge.1 ∉ search.marked).length

theorem length_eraseDups_le (items : List α) : items.eraseDups.length ≤ items.length := by
  cases items with
  | nil => simp
  | cons item rest =>
      rw [List.eraseDups_cons, List.length_cons, List.length_cons]
      exact Nat.succ_le_succ (Nat.le_trans (length_eraseDups_le _) (rest.length_filter_le _))
termination_by items.length
decreasing_by exact Nat.lt_succ_of_le (rest.length_filter_le _)

/-- Marking a node uses up the edges that leave it. -/
theorem length_edges_of_mark (edges : List (α × α)) {node : α} {marked : List α}
    (unmarked : node ∉ marked) :
    (edges.filter fun edge => edge.1 = node).length +
        (edges.filter fun edge => edge.1 ∉ node :: marked).length =
      (edges.filter fun edge => edge.1 ∉ marked).length := by
  induction edges with
  | nil => rfl
  | cons edge rest inductionHypothesis =>
      by_cases leaves : edge.1 = node
      · rw [List.filter_cons_of_pos (by simp [leaves]), List.filter_cons_of_neg (by simp [leaves]),
          List.filter_cons_of_pos (by simp [leaves, unmarked]), List.length_cons, List.length_cons]
        omega
      · rw [List.filter_cons_of_neg (by simp [leaves])]
        by_cases isMarked : edge.1 ∈ marked
        · rw [List.filter_cons_of_neg (by simp [isMarked]),
            List.filter_cons_of_neg (by simp [isMarked])]
          exact inductionHypothesis
        · rw [List.filter_cons_of_pos (by simp [leaves, isMarked]),
            List.filter_cons_of_pos (by simp [isMarked]), List.length_cons, List.length_cons]
          omega

theorem visitsLeft_of_visit? {edges : List (α × α)} {search next : Search α}
    (visited : search.visit? edges = some next) :
    next.visitsLeft edges < search.visitsLeft edges := by
  obtain ⟨marked, todo⟩ := search
  cases todo with
  | nil => exact absurd visited (by simp [visit?])
  | cons node rest =>
      by_cases isMarked : node ∈ marked
      · obtain rfl : ⟨marked, rest⟩ = next := by simpa [visit?, isMarked] using visited
        simp [visitsLeft]
      · simp only [visit?, if_neg isMarked, Option.some.injEq] at visited
        subst visited
        have usedUp := length_edges_of_mark edges isMarked
        have pushed := (successors edges node).length_filter_le fun target => target ∉ node :: marked
        have distinct := length_eraseDups_le ((edges.filter fun edge => edge.1 = node).map (·.2))
        rw [List.length_map] at distinct
        simp only [visitsLeft, successors, List.length_append, List.length_cons] at pushed ⊢
        omega

/-! ### The whole search -/

/-- Visits nodes until none is left, and gives those that are marked then. -/
def finish (edges : List (α × α)) (search : Search α) : List α :=
  match _visited : search.visit? edges with
  | none => search.marked
  | some next => next.finish edges
termination_by search.visitsLeft edges
decreasing_by exact visitsLeft_of_visit? _visited

end Search

/-- The nodes that can be reached from the given ones, each once. -/
def reachable {α : Type} [DecidableEq α] (edges : List (α × α)) (starts : List α) : List α :=
  (Search.start starts).finish edges

end ElmDiagnostics
