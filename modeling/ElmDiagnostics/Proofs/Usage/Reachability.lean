import ElmDiagnostics.Usage.Reachability
import Mathlib.Logic.Relation

/-!
Contract: the search finds what can be reached, and comes to an end.

Owns: `Reaches`, the relation; what a search has explored, which every visit keeps; that at the end
the marked nodes are exactly those a path leads to; and the number of visits until then.

Does not own: the graph that is searched.
-/

set_option autoImplicit false

namespace ElmDiagnostics

/-! ### Paths -/

/-- A path, of any length, leads from one of `starts` to the node. -/
inductive Reaches {α : Type} (edges : List (α × α)) (starts : List α) : α → Prop where
  | start {node : α} (isStart : node ∈ starts) : Reaches edges starts node
  | step {source target : α} (reached : Reaches edges starts source)
      (isEdge : (source, target) ∈ edges) : Reaches edges starts target

theorem Reaches.mono {α : Type} {edges moreEdges : List (α × α)} {starts others : List α} {node : α}
    (moreEdgesHold : ∀ edge ∈ edges, edge ∈ moreEdges)
    (startsReached : ∀ start ∈ starts, Reaches moreEdges others start)
    (reached : Reaches edges starts node) : Reaches moreEdges others node := by
  induction reached with
  | start isStart => exact startsReached _ isStart
  | step _ isEdge inductionHypothesis => exact .step inductionHypothesis (moreEdgesHold _ isEdge)

/-- Reaching along listed edges is following a path of the relation that they list. -/
theorem reaches_iff_path {α : Type} {edges : List (α × α)} {starts : List α}
    {isStart : α → Prop} {isEdge : α → α → Prop}
    (listsStarts : ∀ node, node ∈ starts ↔ isStart node)
    (listsEdges : ∀ source target, (source, target) ∈ edges ↔ isEdge source target) (node : α) :
    Reaches edges starts node ↔
      ∃ start, isStart start ∧ Relation.ReflTransGen isEdge start node := by
  constructor
  · intro reached
    induction reached with
    | @start node inStarts => exact ⟨node, (listsStarts node).mp inStarts, .refl⟩
    | @step source target _ inEdges inductionHypothesis =>
        obtain ⟨start, isStart, path⟩ := inductionHypothesis
        exact ⟨start, isStart, path.tail ((listsEdges source target).mp inEdges)⟩
  · rintro ⟨start, isStart, path⟩
    induction path with
    | refl => exact .start ((listsStarts start).mpr isStart)
    | tail _ isEdge inductionHypothesis =>
        exact .step inductionHypothesis ((listsEdges _ _).mpr isEdge)

namespace Search

variable {α : Type} {edges : List (α × α)} {starts : List α} {search next : Search α}

/-! ### What is explored -/

/-- All that was met can be reached, and nothing was lost on the way: starts and targets of marked
nodes are marked, or still to be visited. -/
structure Explores (edges : List (α × α)) (starts : List α) (search : Search α) : Prop where
  markedReached : ∀ node ∈ search.marked, Reaches edges starts node
  todoReached : ∀ node ∈ search.todo, Reaches edges starts node
  startsMet : ∀ node ∈ starts, node ∈ search.marked ∨ node ∈ search.todo
  targetsMet : ∀ source ∈ search.marked, ∀ target, (source, target) ∈ edges →
    target ∈ search.marked ∨ target ∈ search.todo
  markedOnce : search.marked.Nodup

theorem start_explores (edges : List (α × α)) (starts : List α) :
    (start starts).Explores edges starts where
  markedReached _ isMarked := absurd isMarked List.not_mem_nil
  todoReached _ isStart := .start isStart
  startsMet _ isStart := .inr isStart
  targetsMet _ isMarked := absurd isMarked List.not_mem_nil
  markedOnce := .nil

theorem Explores.drop {node : α} {marked rest : List α}
    (explores : Explores edges starts ⟨marked, node :: rest⟩) (isMarked : node ∈ marked) :
    Explores edges starts ⟨marked, rest⟩ := by
  have stillMet {other : α} (met : other ∈ marked ∨ other ∈ node :: rest) :
      other ∈ marked ∨ other ∈ rest := by
    rcases met with wasMarked | toVisit
    · exact .inl wasMarked
    · rcases List.mem_cons.mp toVisit with rfl | later
      · exact .inl isMarked
      · exact .inr later
  exact {
    markedReached := explores.markedReached
    todoReached := fun other later => explores.todoReached other (List.mem_cons_of_mem _ later)
    startsMet := fun other isStart => stillMet (explores.startsMet other isStart)
    targetsMet := fun source wasMarked target isEdge =>
      stillMet (explores.targetsMet source wasMarked target isEdge)
    markedOnce := explores.markedOnce }

/-- With nothing left to visit, the marked nodes are those a path leads to. -/
theorem Explores.mem_marked_iff (explores : search.Explores edges starts)
    (nothingLeft : search.todo = []) (node : α) :
    node ∈ search.marked ↔ Reaches edges starts node := by
  have marked {other : α} (met : other ∈ search.marked ∨ other ∈ search.todo) :
      other ∈ search.marked := by
    rw [nothingLeft] at met
    exact met.resolve_right List.not_mem_nil
  refine ⟨explores.markedReached node, ?_⟩
  intro reached
  induction reached with
  | start isStart => exact marked (explores.startsMet _ isStart)
  | step _ isEdge inductionHypothesis =>
      exact marked (explores.targetsMet _ inductionHypothesis _ isEdge)

/-! ### One visit -/

variable [DecidableEq α]

theorem mem_successors {node target : α} :
    target ∈ successors edges node ↔ (node, target) ∈ edges := by
  simp only [successors, List.mem_eraseDups, List.mem_map, List.mem_filter, decide_eq_true_eq]
  constructor
  · rintro ⟨⟨source, found⟩, ⟨member, rfl⟩, rfl⟩
    exact member
  · intro member
    exact ⟨(node, target), ⟨member, rfl⟩, rfl⟩

theorem Explores.mark {node : α} {marked rest : List α}
    (explores : Explores edges starts ⟨marked, node :: rest⟩) (unmarked : node ∉ marked) :
    Explores edges starts ⟨node :: marked,
      (successors edges node).filter (fun target => target ∉ node :: marked) ++ rest⟩ := by
  have nodeReached : Reaches edges starts node :=
    explores.todoReached node (List.mem_cons_self ..)
  have stillMet {other : α} (met : other ∈ marked ∨ other ∈ node :: rest) :
      other ∈ node :: marked ∨
        other ∈ (successors edges node).filter (fun target => target ∉ node :: marked) ++ rest := by
    rcases met with wasMarked | toVisit
    · exact .inl (List.mem_cons_of_mem _ wasMarked)
    · rcases List.mem_cons.mp toVisit with rfl | later
      · exact .inl (List.mem_cons_self ..)
      · exact .inr (List.mem_append_right _ later)
  refine ⟨?_, ?_, fun other isStart => stillMet (explores.startsMet other isStart), ?_,
    List.nodup_cons.mpr ⟨unmarked, explores.markedOnce⟩⟩
  · intro other isMarked
    rcases List.mem_cons.mp isMarked with rfl | wasMarked
    · exact nodeReached
    · exact explores.markedReached other wasMarked
  · intro other toVisit
    rcases List.mem_append.mp toVisit with isNew | later
    · exact .step nodeReached (mem_successors.mp (List.mem_filter.mp isNew).1)
    · exact explores.todoReached other (List.mem_cons_of_mem _ later)
  · intro source isMarked target isEdge
    rcases List.mem_cons.mp isMarked with rfl | wasMarked
    · -- a successor is marked already, or it is pushed now
      by_cases targetMarked : target ∈ source :: marked
      · exact .inl targetMarked
      · refine .inr (List.mem_append_left _ (List.mem_filter.mpr ⟨mem_successors.mpr isEdge, ?_⟩))
        exact decide_eq_true targetMarked
    · exact stillMet (explores.targetsMet source wasMarked target isEdge)

theorem Explores.visit (explores : search.Explores edges starts)
    (visited : search.visit? edges = some next) : next.Explores edges starts := by
  obtain ⟨marked, todo⟩ := search
  cases todo with
  | nil => exact absurd visited (by simp [visit?])
  | cons node rest =>
      by_cases isMarked : node ∈ marked
      · simp only [visit?, if_pos isMarked, Option.some.injEq] at visited
        exact visited ▸ explores.drop isMarked
      · simp only [visit?, if_neg isMarked, Option.some.injEq] at visited
        exact visited ▸ explores.mark isMarked

theorem visit?_eq_none_iff : search.visit? edges = none ↔ search.todo = [] := by
  obtain ⟨marked, todo⟩ := search
  cases todo with
  | nil => simp [visit?]
  | cons node rest =>
      simp only [visit?]
      split <;> simp

/-! ### The whole search -/

/-- The search after so many visits, provided that each time there was a node to visit. -/
def visitTimes? (edges : List (α × α)) : Nat → Search α → Option (Search α)
  | 0, search => some search
  | count + 1, search => (search.visit? edges).bind (visitTimes? edges count)

/-- A search that is finished has made no more visits than were left to it, and has nothing left to
visit. -/
theorem exists_visits_to_finish (edges : List (α × α)) (search : Search α) :
    ∃ count last, count ≤ search.visitsLeft edges ∧ search.visitTimes? edges count = some last ∧
      last.todo = [] ∧ search.finish edges = last.marked := by
  fun_induction finish edges search with
  | case1 search ended =>
      exact ⟨0, search, Nat.zero_le _, rfl, visit?_eq_none_iff.mp ended, rfl⟩
  | case2 search next visited inductionHypothesis =>
      obtain ⟨count, last, bounded, reached, nothingLeft, isResult⟩ := inductionHypothesis
      have fewer := visitsLeft_of_visit? visited
      refine ⟨count + 1, last, by omega, ?_, nothingLeft, isResult⟩
      rw [visitTimes?, visited, Option.bind_some, reached]

/-- Visits that leave nothing to visit are the whole search. -/
theorem finish_of_visitTimes (count : Nat) {marked : List α}
    (visited : search.visitTimes? edges count = some ⟨marked, []⟩) :
    search.finish edges = marked := by
  induction count generalizing search with
  | zero =>
      obtain rfl := Option.some.inj visited
      unfold finish
      rfl
  | succ count inductionHypothesis =>
      obtain ⟨first, visitedFirst, visitedRest⟩ := Option.bind_eq_some_iff.mp visited
      unfold finish
      split
      next ended => exact absurd (visitedFirst.symm.trans ended) (Option.some_ne_none _)
      next next isNext =>
        obtain rfl := Option.some.inj (isNext.symm.trans visitedFirst)
        exact inductionHypothesis visitedRest

theorem Explores.visitTimes {count : Nat} (explores : search.Explores edges starts)
    (visited : search.visitTimes? edges count = some next) : next.Explores edges starts := by
  induction count generalizing search with
  | zero => exact Option.some.inj visited ▸ explores
  | succ count inductionHypothesis =>
      obtain ⟨first, visitedFirst, visitedRest⟩ := Option.bind_eq_some_iff.mp visited
      exact inductionHypothesis (explores.visit visitedFirst) visitedRest

theorem visitsLeft_start (edges : List (α × α)) (starts : List α) :
    (start starts).visitsLeft edges = starts.length + edges.length := by
  simp [visitsLeft, start]

end Search

variable {α : Type} [DecidableEq α]

/-- The search ends after at most as many visits as there are starts and edges, with nothing left to
visit. -/
theorem reachable_ends (edges : List (α × α)) (starts : List α) :
    ∃ count last, count ≤ starts.length + edges.length ∧
      (Search.start starts).visitTimes? edges count = some last ∧ last.todo = [] ∧
        reachable edges starts = last.marked := by
  rw [← Search.visitsLeft_start]
  exact Search.exists_visits_to_finish edges (.start starts)

theorem reachable_nodup (edges : List (α × α)) (starts : List α) :
    (reachable edges starts).Nodup := by
  obtain ⟨_, last, _, visited, _, isResult⟩ := reachable_ends edges starts
  rw [isResult]
  exact ((Search.start_explores edges starts).visitTimes visited).markedOnce

/-- The search finds exactly the nodes that a path leads to. -/
theorem mem_reachable_iff (edges : List (α × α)) (starts : List α) (target : α) :
    target ∈ reachable edges starts ↔ Reaches edges starts target := by
  obtain ⟨_, last, _, visited, nothingLeft, isResult⟩ := reachable_ends edges starts
  rw [isResult]
  exact ((Search.start_explores edges starts).visitTimes visited).mem_marked_iff nothingLeft target

end ElmDiagnostics
