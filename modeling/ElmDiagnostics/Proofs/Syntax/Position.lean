import ElmDiagnostics.Proofs.Syntax.Scoping
import Mathlib.Data.List.Nodup
import Mathlib.Data.List.Perm.Basic
import Mathlib.Data.Prod.Basic
import Mathlib.Data.Sum.Basic
import Mathlib.Logic.Equiv.Defs
import Mathlib.Tactic.Choose

/-!
Contract: a traversal of an expression visits every position in it, each exactly once.

Owns: lists that enumerate what a lookup finds, label by label and without repetition; how such
lists are put together, narrowed and reordered; lists that visit paths outermost first; the
expression at a position; and that the expressions inside an expression are listed position by
position, each before those inside it.

Does not own: what is done at a position.

Two equal expressions can stand at different places, so a list of expressions alone cannot say that
nothing was visited twice. Positions can.
-/

set_option autoImplicit false

namespace ElmDiagnostics

/-! ### Enumerations -/

/-- The items are what the lookup finds at the labels that have something, each label once. -/
def Enumerates {ι α : Type} (lookup : ι → Option α) (items : List α) : Prop :=
  ∃ labels : List ι, labels.Nodup ∧ (∀ label, label ∈ labels ↔ (lookup label).isSome) ∧
    labels.filterMap lookup = items

namespace Enumerates

variable {ι κ α β : Type}

theorem filterMap_range_getElem? (items : List α) :
    (List.range items.length).filterMap (fun index => items[index]?) = items := by
  induction items with
  | nil => rfl
  | cons item rest inductionHypothesis =>
      rw [List.length_cons, List.range_succ_eq_map, List.filterMap_cons, List.filterMap_map]
      exact congrArg (item :: ·) inductionHypothesis

/-- A list enumerates what stands at its indices. -/
theorem byIndex (items : List α) : Enumerates (fun index : Nat => items[index]?) items :=
  ⟨List.range items.length, List.nodup_range, by simp, filterMap_range_getElem? items⟩

theorem mem_iff {lookup : ι → Option α} {items : List α} (enumerated : Enumerates lookup items)
    (item : α) : item ∈ items ↔ ∃ label, lookup label = some item := by
  obtain ⟨labels, _, complete, rfl⟩ := enumerated
  rw [List.mem_filterMap]
  constructor
  · rintro ⟨label, _, found⟩
    exact ⟨label, found⟩
  · rintro ⟨label, found⟩
    exact ⟨label, (complete label).mpr (Option.isSome_of_mem found), found⟩

/-- Labels may be named otherwise. -/
theorem relabel {lookup : ι → Option α} {items : List α} (enumerated : Enumerates lookup items)
    (rename : κ ≃ ι) : Enumerates (fun label => lookup (rename label)) items := by
  obtain ⟨labels, nodup, complete, rfl⟩ := enumerated
  refine ⟨labels.map rename.symm, nodup.map rename.symm.injective, ?_, ?_⟩
  · intro label
    rw [← complete, List.mem_map]
    constructor
    · rintro ⟨original, isLabel, rfl⟩
      rwa [rename.apply_symm_apply]
    · intro isLabel
      exact ⟨rename label, isLabel, rename.symm_apply_apply label⟩
  · rw [List.filterMap_map]
    congr 1
    funext label
    exact congrArg lookup (rename.apply_symm_apply label)

/-- Two enumerations one after the other. -/
theorem append {first : ι → Option α} {second : κ → Option α} {firstItems secondItems : List α}
    (inFirst : Enumerates first firstItems) (inSecond : Enumerates second secondItems) :
    Enumerates (Sum.elim first second) (firstItems ++ secondItems) := by
  obtain ⟨firstLabels, firstNodup, firstComplete, rfl⟩ := inFirst
  obtain ⟨secondLabels, secondNodup, secondComplete, rfl⟩ := inSecond
  refine ⟨firstLabels.map .inl ++ secondLabels.map .inr, ?_, ?_, ?_⟩
  · refine (firstNodup.map Sum.inl_injective).append (secondNodup.map Sum.inr_injective) ?_
    intro label isFirst isSecond
    obtain ⟨firstLabel, _, rfl⟩ := List.mem_map.mp isFirst
    obtain ⟨secondLabel, _, differs⟩ := List.mem_map.mp isSecond
    exact Sum.inr_ne_inl differs
  · intro label
    cases label with
    | inl label => simp [firstComplete]
    | inr label => simp [secondComplete]
  · rw [List.filterMap_append, List.filterMap_map, List.filterMap_map, Sum.elim_comp_inl,
      Sum.elim_comp_inr]

/-- Enumerating inside every item of an enumeration. -/
theorem bind {lookup : ι → Option α} {items : List α} {inner : α → κ → Option β}
    {gather : α → List β} (outer : Enumerates lookup items)
    (each : ∀ item ∈ items, Enumerates (inner item) (gather item)) :
    Enumerates (fun label : ι × κ => (lookup label.1).bind fun item => inner item label.2)
      (items.flatMap gather) := by
  obtain ⟨labels, nodup, complete, rfl⟩ := outer
  -- One list of inner labels for each outer label that has an item, none for the others.
  have innerLabels : ∀ label, ∃ inside : List κ, inside.Nodup ∧
      (∀ place, place ∈ inside ↔ ((lookup label).bind fun item => inner item place).isSome) ∧
      (inside.filterMap fun place => (lookup label).bind fun item => inner item place) =
        (lookup label).toList.flatMap gather := by
    intro label
    cases found : lookup label with
    | none => exact ⟨[], List.nodup_nil, by simp, rfl⟩
    | some item =>
        have isLabel : label ∈ labels := (complete label).mpr (by rw [found]; rfl)
        obtain ⟨inside, insideNodup, insideComplete, insideItems⟩ :=
          each item (List.mem_filterMap.mpr ⟨label, isLabel, found⟩)
        refine ⟨inside, insideNodup, insideComplete, ?_⟩
        rw [Option.toList_some, List.flatMap_singleton]
        exact insideItems
  choose inside insideNodup insideComplete insideItems using innerLabels
  refine ⟨labels.flatMap fun label => (inside label).map (Prod.mk label), ?_, ?_, ?_⟩
  · refine List.nodup_flatMap.mpr ⟨?_, ?_⟩
    · intro label _
      exact (insideNodup label).map (Prod.mk_right_injective label)
    · refine nodup.imp ?_
      intro first second differs label inFirst inSecond
      obtain ⟨_, _, rfl⟩ := List.mem_map.mp inFirst
      obtain ⟨_, _, sameLabel⟩ := List.mem_map.mp inSecond
      exact differs (congrArg Prod.fst sameLabel).symm
  · rintro ⟨label, place⟩
    rw [List.mem_flatMap]
    constructor
    · rintro ⟨outerLabel, _, isInside⟩
      obtain ⟨_, isPlace, same⟩ := List.mem_map.mp isInside
      obtain ⟨rfl, rfl⟩ := Prod.mk.inj same
      exact (insideComplete _ _).mp isPlace
    · intro found
      have isLabel : label ∈ labels := (complete label).mpr (Option.isSome_of_isSome_bind found)
      exact ⟨label, isLabel, List.mem_map_of_mem ((insideComplete label place).mpr found)⟩
  · rw [List.filterMap_flatMap, List.filterMap_eq_flatMap_toList, List.flatMap_assoc]
    congr 1
    funext label
    rw [List.filterMap_map, ← insideItems label]
    rfl

/-- Enumerating only what is chosen from each item. -/
theorem filterMap {lookup : ι → Option α} {items : List α} (enumerated : Enumerates lookup items)
    (choice : α → Option β) :
    Enumerates (fun label => (lookup label).bind choice) (items.filterMap choice) := by
  obtain ⟨labels, nodup, complete, rfl⟩ := enumerated
  refine ⟨labels.filter fun label => ((lookup label).bind choice).isSome, nodup.filter _, ?_, ?_⟩
  · intro label
    rw [List.mem_filter, complete]
    exact ⟨And.right, fun chosen => ⟨Option.isSome_of_isSome_bind chosen, chosen⟩⟩
  · rw [List.filterMap_filter, List.filterMap_filterMap]
    congr 1
    funext label
    cases (lookup label).bind choice <;> rfl

theorem forall₂_filterMap {lookup : ι → Option α} {labels : List ι}
    (eachFound : ∀ label ∈ labels, (lookup label).isSome) :
    List.Forall₂ (fun item label => lookup label = some item) (labels.filterMap lookup) labels := by
  induction labels with
  | nil => exact .nil
  | cons label rest inductionHypothesis =>
      obtain ⟨item, found⟩ := Option.isSome_iff_exists.mp (eachFound label List.mem_cons_self)
      rw [List.filterMap_cons_some found]
      refine .cons found (inductionHypothesis ?_)
      intro other isRest
      exact eachFound other (List.mem_cons_of_mem label isRest)

/-- The order in which the items are listed does not matter. -/
theorem perm {lookup : ι → Option α} {items reordered : List α}
    (enumerated : Enumerates lookup items) (isReordered : reordered.Perm items) :
    Enumerates lookup reordered := by
  obtain ⟨labels, nodup, complete, rfl⟩ := enumerated
  have eachFound := forall₂_filterMap fun label => (complete label).mp
  -- The labels are put into the new order along with their items.
  obtain ⟨newLabels, eachNew, newOrder⟩ := List.perm_comp_forall₂ isReordered eachFound
  refine ⟨newLabels, newOrder.nodup_iff.mpr nodup, ?_, ?_⟩
  · intro label
    rw [newOrder.mem_iff, complete]
  · clear newOrder isReordered
    induction eachNew with
    | nil => rfl
    | cons found _ inductionHypothesis => rw [List.filterMap_cons_some found, inductionHypothesis]

end Enumerates

/-! ### Visiting from the outside in -/

/-- The items are what the lookup finds at the paths that have something, each path once, and no
path after one that leads on from it. -/
def VisitsOutermostFirst {α : Type} (lookup : List Nat → Option α) (items : List α) : Prop :=
  ∃ paths : List (List Nat), paths.Nodup ∧ (∀ path, path ∈ paths ↔ (lookup path).isSome) ∧
    paths.filterMap lookup = items ∧ paths.Pairwise fun earlier later => ¬ later <+: earlier

namespace VisitsOutermostFirst

variable {α β : Type} {lookup : List Nat → Option α} {items : List α}

theorem enumerates (visits : VisitsOutermostFirst lookup items) : Enumerates lookup items := by
  obtain ⟨paths, nodup, complete, visited, _⟩ := visits
  exact ⟨paths, nodup, complete, visited⟩

/-- Something first, and then what is visited inside its numbered parts, part by part. -/
theorem self_and_parts (self : α) {parts : List β} {inner : β → List Nat → Option α}
    {gather : β → List α} (each : ∀ part ∈ parts, VisitsOutermostFirst (inner part) (gather part))
    (atSelf : lookup [] = some self)
    (atPart : ∀ index path,
      lookup (index :: path) = parts[index]?.bind fun part => inner part path) :
    VisitsOutermostFirst lookup (self :: parts.flatMap gather) := by
  -- One list of paths for each number; a number without a part has none.
  have insidePaths : ∀ index, ∃ inside : List (List Nat),
      (inside.Pairwise fun earlier later => ¬ later <+: earlier) ∧
      (∀ path, path ∈ inside ↔ (lookup (index :: path)).isSome) ∧
      inside.filterMap (fun path => lookup (index :: path)) =
        parts[index]?.toList.flatMap gather := by
    intro index
    simp only [atPart]
    cases found : parts[index]? with
    | none => exact ⟨[], .nil, by simp, rfl⟩
    | some part =>
        obtain ⟨inside, _, complete, visited, outermostFirst⟩ :=
          each part (List.mem_of_getElem? found)
        refine ⟨inside, outermostFirst, complete, ?_⟩
        rw [Option.toList_some, List.flatMap_singleton]
        exact visited
  choose inside outermostFirst complete visited using insidePaths
  have inParts : ∀ path, path ∈ (List.range parts.length).flatMap (fun index =>
      (inside index).map (index :: ·)) ↔
        ∃ index rest, path = index :: rest ∧ rest ∈ inside index := by
    intro path
    simp only [List.mem_flatMap, List.mem_range, List.mem_map]
    constructor
    · rintro ⟨index, _, rest, isInside, rfl⟩
      exact ⟨index, rest, rfl, isInside⟩
    · rintro ⟨index, rest, rfl, isInside⟩
      have found := (complete index rest).mp isInside
      rw [atPart] at found
      have hasPart : parts[index]?.isSome := Option.isSome_of_isSome_bind found
      exact ⟨index, by simpa using hasPart, rest, isInside, rfl⟩
  have ordered : ([] :: (List.range parts.length).flatMap fun index =>
      (inside index).map (index :: ·)).Pairwise fun earlier later => ¬ later <+: earlier := by
    refine List.pairwise_cons.mpr ⟨?_, List.pairwise_flatMap.mpr ⟨?_, ?_⟩⟩
    · intro path isPath
      obtain ⟨index, rest, rfl, _⟩ := (inParts path).mp isPath
      simp
    · intro index _
      rw [List.pairwise_map]
      refine (outermostFirst index).imp ?_
      intro earlier later apart isPrefix
      exact apart (List.cons_prefix_cons.mp isPrefix).2
    · refine List.pairwise_lt_range.imp ?_
      intro index laterIndex before earlier isEarlier later isLater isPrefix
      obtain ⟨_, _, rfl⟩ := List.mem_map.mp isEarlier
      obtain ⟨_, _, rfl⟩ := List.mem_map.mp isLater
      exact absurd (List.cons_prefix_cons.mp isPrefix).1 (Nat.ne_of_gt before)
  refine ⟨_, ordered.imp ?_, ?_, ?_, ordered⟩
  · rintro earlier _ apart rfl
    exact apart (List.prefix_refl earlier)
  · intro path
    rw [List.mem_cons, inParts]
    cases path with
    | nil => simp [atSelf]
    | cons index rest => simp [complete]
  · rw [List.filterMap_cons_some atSelf, List.filterMap_flatMap]
    simp only [List.filterMap_map, Function.comp_def, visited]
    rw [← List.flatMap_assoc, ← List.filterMap_eq_flatMap_toList,
      Enumerates.filterMap_range_getElem?]

end VisitsOutermostFirst

/-! ### Positions in an expression -/

namespace Expr

/-- The expression that a path of part numbers leads to. -/
def at? : Expr → List Nat → Option Expr
  | expr, [] => some expr
  | expr, index :: path => expr.scopedParts[index]?.bind fun part => part.expr.at? path

theorem subexprsOfList_eq_flatMap (exprs : List Expr) :
    subexprsOfList exprs = exprs.flatMap subexprs := by
  induction exprs with
  | nil => rfl
  | cons expr rest inductionHypothesis =>
      rw [subexprsOfList, inductionHypothesis, List.flatMap_cons]

theorem subexprsOfFields_eq_flatMap (fields : List ExprField) :
    subexprsOfFields fields = fields.flatMap fun field => field.value.subexprs := by
  induction fields with
  | nil => rfl
  | cons field rest inductionHypothesis =>
      obtain ⟨name, value, span⟩ := field
      rw [subexprsOfFields, inductionHypothesis, List.flatMap_cons]

theorem subexprsOfBranches_eq_flatMap (branches : List CaseBranch) :
    subexprsOfBranches branches = branches.flatMap fun branch => branch.body.subexprs := by
  induction branches with
  | nil => rfl
  | cons branch rest inductionHypothesis =>
      obtain ⟨pattern, body, span⟩ := branch
      rw [subexprsOfBranches, inductionHypothesis, List.flatMap_cons]

theorem subexprsOfLetDecls_eq_flatMap (declarations : List LetDecl) :
    subexprsOfLetDecls declarations =
      declarations.flatMap fun declaration => declaration.rightSide.expr.subexprs := by
  induction declarations with
  | nil => rfl
  | cons declaration rest inductionHypothesis =>
      cases declaration with
      | value decl =>
          obtain ⟨signature, name, params, body, span⟩ := decl
          rw [subexprsOfLetDecls, inductionHypothesis, List.flatMap_cons]
          rfl
      | destructure pattern body span =>
          rw [subexprsOfLetDecls, inductionHypothesis, List.flatMap_cons]
          rfl

/-- The expressions inside an expression: itself, and those inside its parts, part by part. -/
theorem subexprs_eq_self_and_parts (expr : Expr) :
    expr.subexprs = expr :: expr.scopedParts.flatMap fun part => part.expr.subexprs := by
  cases expr <;>
    simp [subexprs, scopedParts, letScope, subexprsOfList_eq_flatMap, subexprsOfFields_eq_flatMap,
      subexprsOfBranches_eq_flatMap, subexprsOfLetDecls_eq_flatMap, List.flatMap_map]

/-- Every expression inside an expression is visited, position by position, once each and before the
expressions inside it. -/
theorem subexprs_visited : ∀ expr : Expr, VisitsOutermostFirst expr.at? expr.subexprs := by
  apply scopedParts_induction
  intro expr inductionHypothesis
  rw [subexprs_eq_self_and_parts]
  exact .self_and_parts expr inductionHypothesis rfl fun _ _ => rfl

theorem subexprs_enumerated (expr : Expr) : Enumerates expr.at? expr.subexprs :=
  expr.subexprs_visited.enumerates

end Expr

end ElmDiagnostics
