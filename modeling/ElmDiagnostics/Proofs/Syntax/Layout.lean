import ElmDiagnostics.Proofs.Syntax.NodePosition

/-!
Contract: in a tree that is laid out as it is written, names and expressions come in source order.

Owns: the source order of spans; the fragments of a module that have a place of their own in the
text, and those directly inside each; what it means for a fragment to be well laid out; that the
names a pattern binds and the expressions of a module are then listed in source order; and that a
pattern lists each variable, record field and alias once.

Does not own: the rules that report expressions in this order.

Patterns, the names that they bind, expressions and what these directly stand in have to be in
place. Nothing is asked of the spans of other names, of types, of headers and of imports.
-/

set_option autoImplicit false

namespace ElmDiagnostics

/-! ### Source order -/

namespace Position

theorem le_iff (left right : Position) :
    left ≤ right ↔ left.line.toNat < right.line.toNat ∨
      left.line.toNat = right.line.toNat ∧ left.column.toNat ≤ right.column.toNat := by
  show left.le right = true ↔ _
  simp [le, UInt32.lt_iff_toNat_lt, UInt32.le_iff_toNat_le, ← UInt32.toNat_inj]

theorem le_refl (position : Position) : position ≤ position := by
  rw [le_iff]
  omega

theorem le_trans {first second third : Position} (firstLe : first ≤ second)
    (secondLe : second ≤ third) : first ≤ third := by
  rw [le_iff] at firstLe secondLe ⊢
  omega

end Position

namespace Span

/-- The span lies inside `outer` and does not stop before it starts. -/
def Within (inner outer : Span) : Prop :=
  outer.start ≤ inner.start ∧ inner.start ≤ inner.stop ∧ inner.stop ≤ outer.stop

/-- The span stops where `later` starts, or earlier. -/
def Before (earlier later : Span) : Prop := earlier.stop ≤ later.start

instance (inner outer : Span) : Decidable (inner.Within outer) :=
  inferInstanceAs (Decidable (_ ∧ _ ∧ _))

instance (earlier later : Span) : Decidable (earlier.Before later) :=
  inferInstanceAs (Decidable (_ ≤ _))

theorem Within.trans {inner middle outer : Span} (innerWithin : inner.Within middle)
    (middleWithin : middle.Within outer) : inner.Within outer := by
  obtain ⟨innerStart, proper, innerStop⟩ := innerWithin
  obtain ⟨middleStart, _, middleStop⟩ := middleWithin
  exact ⟨Position.le_trans middleStart innerStart, proper, Position.le_trans innerStop middleStop⟩

theorem le_of_before {earlier later : Span} (earlierProper : earlier.start ≤ earlier.stop)
    (laterProper : later.start ≤ later.stop) (before : earlier.Before later) : earlier ≤ later := by
  show earlier.le later = true
  unfold le
  split
  · exact Position.le_trans before laterProper
  · exact Position.le_trans earlierProper before

end Span

/-! ### Fragments -/

/-- A fragment of a module with a place of its own in the text. -/
inductive Fragment where
  | expr (tree : Expr)
  | pattern (tree : Pattern)
  | name (binder : Name)
  | field (entry : ExprField)
  | branch (arm : CaseBranch)
  | signature (heading : Signature)
  | letDecl (decl : LetDecl)
  | declaration (decl : Declaration)
  | module (m : Module)

/-- Where the declaration is written. -/
def LetDecl.span : LetDecl → Span
  | .value decl => decl.span
  | .destructure _ _ span => span

/-- Signature, parameters and body, in the order in which they are written. -/
def ValueDecl.fragments (decl : ValueDecl) : List Fragment :=
  decl.signature.toList.map .signature ++ (decl.params.map .pattern ++ [.expr decl.body])

namespace Fragment

def span : Fragment → Span
  | .expr tree => tree.span
  | .pattern tree => tree.span
  | .name binder => binder.span
  | .field entry => entry.span
  | .branch arm => arm.span
  | .signature heading => heading.span
  | .letDecl decl => decl.span
  | .declaration decl => decl.span
  | .module m => m.span

/-- The fragments directly inside a fragment, in the order in which they are written. -/
def parts : Fragment → List Fragment
  | .expr (.var _) | .expr (.ctor _) | .expr (.operator _) | .expr (.accessor _)
  | .expr (.literal _) | .expr (.unit _) => []
  | .expr (.negate inner _) | .expr (.paren inner _) | .expr (.access inner _ _) => [.expr inner]
  | .expr (.tuple items _) | .expr (.list items _) => items.map .expr
  | .expr (.record fields _) | .expr (.update _ fields _) => fields.map .field
  | .expr (.call function args _) => .expr function :: args.map .expr
  | .expr (.binary _ left right _) => [.expr left, .expr right]
  | .expr (.lambda params body _) => params.map .pattern ++ [.expr body]
  | .expr (.ifThenElse condition thenBranch elseBranch _) =>
      [.expr condition, .expr thenBranch, .expr elseBranch]
  | .expr (.caseOf scrutinee branches _) => .expr scrutinee :: branches.map .branch
  | .expr (.letIn declarations body _) => declarations.map .letDecl ++ [.expr body]
  | .pattern (.wildcard _) | .pattern (.var _) | .pattern (.literal _) | .pattern (.unit _) => []
  | .pattern (.paren inner _) => [.pattern inner]
  | .pattern (.tuple items _) | .pattern (.list items _) | .pattern (.ctor _ items _) =>
      items.map .pattern
  | .pattern (.cons head tail _) => [.pattern head, .pattern tail]
  | .pattern (.record fields _) => fields.map .name
  | .pattern (.named inner binder _) => [.pattern inner, .name binder]
  | .name _ | .signature _ => []
  | .field entry => [.expr entry.value]
  | .branch arm => [.pattern arm.pattern, .expr arm.body]
  | .letDecl (.value decl) | .declaration (.value decl) => decl.fragments
  | .letDecl (.destructure target body _) => [.pattern target, .expr body]
  | .declaration (.typeAlias _) | .declaration (.customType _) | .declaration (.port _)
  | .declaration (.operator _) => []
  | .module m => m.declarations.map .declaration

/-- Every fragment lies inside the one around it, and fragments side by side follow each other
without overlap in the order in which they are written, at every depth. -/
inductive WellLaidOut : Fragment → Prop where
  | intro {fragment : Fragment} (inside : ∀ part ∈ fragment.parts, part.span.Within fragment.span)
      (sideBySide : fragment.parts.Pairwise fun earlier later => earlier.span.Before later.span)
      (each : ∀ part ∈ fragment.parts, WellLaidOut part) : WellLaidOut fragment

/-- Checks the layout down to a depth below which nothing may be left. -/
def isLaidOut : Nat → Fragment → Bool
  | 0, fragment => fragment.parts.isEmpty
  | depth + 1, fragment =>
      decide (∀ part ∈ fragment.parts, part.span.Within fragment.span) &&
        decide (fragment.parts.Pairwise fun earlier later => earlier.span.Before later.span) &&
        fragment.parts.all (isLaidOut depth)

theorem wellLaidOut_of_isLaidOut {depth : Nat} {fragment : Fragment}
    (checked : fragment.isLaidOut depth = true) : fragment.WellLaidOut := by
  induction depth generalizing fragment with
  | zero =>
      have noParts : fragment.parts = [] := List.isEmpty_iff.mp checked
      exact .intro (by simp [noParts]) (by simp [noParts]) (by simp [noParts])
  | succ depth inductionHypothesis =>
      simp only [isLaidOut, Bool.and_eq_true, decide_eq_true_eq, List.all_eq_true] at checked
      obtain ⟨⟨inside, sideBySide⟩, each⟩ := checked
      exact .intro inside sideBySide fun part isPart => inductionHypothesis (each part isPart)

/-! ### Gathering spans part by part -/

/-- From fragments of a kind, spans are gathered part by part; the fragment's own comes first if it
is among the chosen ones. -/
structure Gathers (isKind : Fragment → Prop) (isChosen : Fragment → Bool)
    (gather : Fragment → List Span) : Prop where
  closed : ∀ {fragment}, isKind fragment → ∀ part ∈ fragment.parts, isKind part
  oneLevel : ∀ {fragment}, isKind fragment → gather fragment =
    (if isChosen fragment then [fragment.span] else []) ++ fragment.parts.flatMap gather

namespace Gathers

variable {isKind : Fragment → Prop} {isChosen : Fragment → Bool} {gather : Fragment → List Span}
  {fragment : Fragment} (gathers : Gathers isKind isChosen gather)

include gathers

/-- What is gathered from a fragment lies inside it. The layout says of every fragment but the
outermost that it does not stop before it starts, so this is asked here. -/
theorem within (laidOut : fragment.WellLaidOut) (ofKind : isKind fragment)
    (proper : fragment.span.start ≤ fragment.span.stop) :
    ∀ span ∈ gather fragment, span.Within fragment.span := by
  induction laidOut with
  | @intro fragment inside _ _ inductionHypothesis =>
      intro span isGathered
      rw [gathers.oneLevel ofKind, List.mem_append, List.mem_flatMap] at isGathered
      rcases isGathered with isOwn | ⟨part, isPart, inPart⟩
      · obtain rfl : span = fragment.span := by
          split at isOwn
          · exact List.mem_singleton.mp isOwn
          · exact absurd isOwn List.not_mem_nil
        exact ⟨Position.le_refl _, proper, Position.le_refl _⟩
      · have partInside := inside part isPart
        have spanInside := inductionHypothesis part isPart (gathers.closed ofKind part isPart)
          partInside.2.1 span inPart
        exact spanInside.trans partInside

/-- A relation that holds between spans side by side, and between the span of a chosen fragment and
those inside it, holds from each gathered span to all later ones. -/
theorem pairwise {Precedes : Span → Span → Prop}
    (ofBefore : ∀ {earlier later : Span}, earlier.start ≤ earlier.stop → later.start ≤ later.stop →
      earlier.Before later → Precedes earlier later)
    (ofInside : ∀ {fragment : Fragment}, isChosen fragment = true → ∀ part ∈ fragment.parts,
      ∀ {span : Span}, span.Within fragment.span → Precedes fragment.span span)
    (laidOut : fragment.WellLaidOut) (ofKind : isKind fragment) :
    (gather fragment).Pairwise Precedes := by
  induction laidOut with
  | @intro fragment inside sideBySide each inductionHypothesis =>
      have kindOf := gathers.closed ofKind
      have withinPart : ∀ part ∈ fragment.parts, ∀ span ∈ gather part, span.Within part.span := by
        intro part isPart
        exact gathers.within (each part isPart) (kindOf part isPart) (inside part isPart).2.1
      have inParts : (fragment.parts.flatMap gather).Pairwise Precedes := by
        rw [List.pairwise_flatMap]
        refine ⟨fun part isPart => inductionHypothesis part isPart (kindOf part isPart), ?_⟩
        -- Spans from two parts follow each other because the parts do.
        refine sideBySide.imp_of_mem ?_
        intro earlierPart laterPart isEarlier isLater before earlier inEarlier later inLater
        obtain ⟨_, earlierProper, earlierStop⟩ := withinPart _ isEarlier earlier inEarlier
        obtain ⟨laterStart, laterProper, _⟩ := withinPart _ isLater later inLater
        have follows : earlier.Before later :=
          Position.le_trans (Position.le_trans earlierStop before) laterStart
        exact ofBefore earlierProper laterProper follows
      rw [gathers.oneLevel ofKind]
      split
      next isOwn =>
        refine List.pairwise_cons.mpr ⟨?_, inParts⟩
        intro span isGathered
        obtain ⟨part, isPart, inPart⟩ := List.mem_flatMap.mp isGathered
        have spanInside := (withinPart part isPart span inPart).trans (inside part isPart)
        exact ofInside isOwn part isPart spanInside
      next => exact inParts

end Gathers

end Fragment

/-! ### Names bound by a pattern -/

namespace Pattern

/-- The names that a pattern binds itself: a variable, the fields of a record, an alias. -/
def ownBinders : Pattern → List Name
  | .var name => [name]
  | .record fields _ => fields
  | .named _ name _ => [name]
  | _ => []

theorem bindersOfList_eq_flatMap (patterns : List Pattern) :
    bindersOfList patterns = patterns.flatMap binders := by
  induction patterns with
  | nil => rfl
  | cons pattern rest inductionHypothesis =>
      rw [bindersOfList, inductionHypothesis, List.flatMap_cons]

/-- One level: an alias is listed after the names of its pattern, all else as it stands. -/
theorem binders_perm_own_and_parts (pattern : Pattern) :
    pattern.binders.Perm (pattern.ownBinders ++ pattern.parts.flatMap binders) := by
  cases pattern <;> simp [binders, ownBinders, parts, bindersOfList_eq_flatMap]

end Pattern

def Node.ownBinders : Node → List Name
  | .pattern tree => tree.ownBinders
  | _ => []

namespace Pattern

theorem binders_perm_nodes (pattern : Pattern) :
    pattern.binders.Perm ((Node.pattern pattern).nodes.flatMap Node.ownBinders) := by
  generalize isPattern : Node.pattern pattern = node
  induction node using Node.children_induction generalizing pattern with
  | step node inductionHypothesis =>
      subst isPattern
      rw [Node.nodes_eq, List.flatMap_cons, Node.children_pattern, List.flatMap_assoc,
        List.flatMap_map]
      refine pattern.binders_perm_own_and_parts.trans (.append_left _ ?_)
      refine List.Perm.flatMap_left _ ?_
      intro part isPart
      refine inductionHypothesis (.pattern part) ?_ part rfl
      rw [Node.children_pattern]
      exact List.mem_map_of_mem isPart

/-- The name bound at a place in a pattern: by the pattern at the end of a path, and as which of the
names that this one binds itself. -/
def binderAt? (pattern : Pattern) (place : List Nat × Nat) : Option Name :=
  ((Node.pattern pattern).at? place.1).bind fun node => node.ownBinders[place.2]?

/-- Every variable, record field and alias is listed, place by place, once each. -/
theorem binders_enumerated (pattern : Pattern) : Enumerates pattern.binderAt? pattern.binders := by
  have places := (Node.pattern pattern).nodes_visited.enumerates.bind fun node _ =>
    Enumerates.byIndex node.ownBinders
  exact places.perm pattern.binders_perm_nodes

end Pattern

namespace Fragment

/-- Patterns and the names that stand in them without being patterns themselves. -/
def OfPattern : Fragment → Prop
  | .pattern _ | .name _ => True
  | _ => False

def isBinder : Fragment → Bool
  | .pattern (.var _) | .name _ => true
  | _ => false

def binders : Fragment → List Name
  | .pattern tree => tree.binders
  | .name binder => [binder]
  | _ => []

theorem parts_eq_nil_of_isBinder {fragment : Fragment} (isName : fragment.isBinder = true) :
    fragment.parts = [] := by
  unfold isBinder at isName
  split at isName
  · rfl
  · rfl
  · cases isName

theorem gathers_binders :
    Gathers OfPattern isBinder fun fragment => fragment.binders.map (·.span) where
  closed := by
    intro fragment ofPattern part isPart
    cases fragment with
    | pattern tree => cases tree <;> grind [OfPattern, parts]
    | _ => grind [OfPattern, parts]
  oneLevel := by
    intro fragment ofPattern
    cases fragment with
    | pattern tree =>
        cases tree <;>
          simp [binders, isBinder, parts, span, Pattern.span, Pattern.binders,
            Pattern.bindersOfList_eq_flatMap, List.flatMap_map, List.map_flatMap,
            ← List.map_eq_flatMap]
    | name binder => simp [binders, isBinder, parts, span]
    | _ => exact ofPattern.elim

end Fragment

theorem Pattern.binders_sorted {pattern : Pattern}
    (laidOut : (Fragment.pattern pattern).WellLaidOut) :
    (pattern.binders.map (·.span)).Pairwise (· ≤ ·) := by
  refine Fragment.gathers_binders.pairwise Span.le_of_before ?_ laidOut trivial
  intro fragment isName part isPart
  rw [Fragment.parts_eq_nil_of_isBinder isName] at isPart
  exact absurd isPart List.not_mem_nil

/-! ### Expressions of a module -/

namespace Fragment

def isExpr : Fragment → Bool
  | .expr _ => true
  | _ => false

/-- The expressions listed from a fragment. -/
def exprs : Fragment → List Expr
  | .expr tree => tree.subexprs
  | .field entry => entry.value.subexprs
  | .branch arm => arm.body.subexprs
  | .letDecl decl => decl.rightSide.expr.subexprs
  | .declaration (.value decl) => decl.body.subexprs
  | .module m => m.exprs
  | _ => []

theorem flatMap_exprs_valueDecl (decl : ValueDecl) :
    decl.fragments.flatMap exprs = decl.body.subexprs := by
  have inSignature : (decl.signature.toList.map Fragment.signature).flatMap exprs = [] := by
    simp [List.flatMap_eq_nil_iff, exprs]
  have inParams : (decl.params.map Fragment.pattern).flatMap exprs = [] := by
    simp [List.flatMap_eq_nil_iff, exprs]
  rw [ValueDecl.fragments, List.flatMap_append, List.flatMap_append, inSignature, inParams]
  simp [exprs]

theorem flatMap_exprs_expr (tree : Expr) :
    (Fragment.expr tree).parts.flatMap exprs =
      tree.scopedParts.flatMap fun part => part.expr.subexprs := by
  cases tree <;>
    simp [parts, exprs, Expr.scopedParts, Expr.letScope, List.flatMap_map]

theorem flatMap_exprs_module (m : Module) :
    (Fragment.module m).parts.flatMap exprs = m.exprs := by
  rw [Module.exprs, Module.valueDecls, List.filterMap_eq_flatMap_toList, List.flatMap_assoc, parts,
    List.flatMap_map]
  refine List.flatMap_congr ?_
  intro decl _
  cases decl <;> simp [exprs]

/-- One level: an expression is listed first, and then what is listed from its parts. -/
theorem exprs_eq_self_and_parts (fragment : Fragment) :
    fragment.exprs.map (·.span) =
      (if fragment.isExpr then [fragment.span] else []) ++
        (fragment.parts.flatMap exprs).map (·.span) := by
  cases fragment with
  | expr tree =>
      rw [flatMap_exprs_expr, exprs, tree.subexprs_eq_self_and_parts]
      rfl
  | letDecl decl =>
      cases decl with
      | value decl => simp [isExpr, exprs, parts, flatMap_exprs_valueDecl, LetDecl.rightSide]
      | destructure target body span => simp [isExpr, exprs, parts, LetDecl.rightSide]
  | declaration decl =>
      cases decl <;> simp [isExpr, exprs, parts, flatMap_exprs_valueDecl]
  | module m =>
      rw [flatMap_exprs_module]
      rfl
  | pattern tree => cases tree <;> simp [exprs, parts, isExpr, List.flatMap_eq_nil_iff]
  | _ => simp [exprs, parts, isExpr]

theorem gathers_exprs :
    Gathers (fun _ => True) isExpr fun fragment => fragment.exprs.map (·.span) where
  closed := fun _ _ _ => trivial
  oneLevel := by
    intro fragment _
    rw [exprs_eq_self_and_parts, List.map_flatMap]

end Fragment

theorem Module.exprs_sorted {m : Module} (laidOut : (Fragment.module m).WellLaidOut) :
    (m.exprs.map (·.span.start)).Pairwise (· ≤ ·) := by
  have byStart : (m.exprs.map (·.span)).Pairwise fun earlier later =>
      earlier.start ≤ later.start := by
    refine Fragment.gathers_exprs.pairwise ?_ ?_ laidOut trivial
    · intro earlier later earlierProper _ before
      exact Position.le_trans earlierProper before
    · intro fragment _ part _ span inside
      exact inside.1
  rw [List.pairwise_map] at byStart ⊢
  exact byStart

end ElmDiagnostics
