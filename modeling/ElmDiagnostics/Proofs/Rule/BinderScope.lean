import ElmDiagnostics.Proofs.Syntax.Position
import ElmDiagnostics.Rule.Binder

/-!
Contract: the rule for unused pattern variables agrees with lexical scoping.

Owns: the binding sites of a module, by position; what each of them governs; that the rule examines
every site exactly once; that a reported binder is free nowhere in what its site governs; and that an
unreported binder is free there unless its name is bound once more inside.

Does not own: free names and the traversal of expressions.

The rule only asks whether a name occurs. Shadowing can therefore hide an unused binder, and it is
the only thing that can.
-/

set_option autoImplicit false

namespace ElmDiagnostics

/-! ### Binding sites -/

/-- A pattern that binds names, and the expressions these names govern. -/
structure BindingSite where
  pattern : Pattern
  scope : List ScopedExpr

namespace BindingSite

/-- The names free in what the site governs. -/
def freeNames (site : BindingSite) : List String := site.scope.flatMap ScopedExpr.freeNames

/-- The names that are bound again inside what the site governs. -/
def boundNames (site : BindingSite) : List String := site.scope.flatMap ScopedExpr.boundNames

/-- The unqualified value names that occur in what the site governs, however they are bound. -/
def mentioned (site : BindingSite) : List String :=
  site.scope.flatMap fun part => part.expr.localValues

/-- The binders that occur nowhere. -/
def reported (site : BindingSite) : List Name :=
  site.pattern.binders.filter fun binder => binder.text ∉ site.mentioned

end BindingSite

/-- Each parameter governs the body. -/
def ValueDecl.paramSites (decl : ValueDecl) : List BindingSite :=
  decl.params.map fun param => ⟨param, [.plain decl.body]⟩

/-- The patterns that the expression itself binds with: parameters of a lambda, patterns of case
branches, and in a `let` the parameters of its functions and its destructurings. A destructuring
governs the whole `let`. -/
def Expr.ownSites : Expr → List BindingSite
  | .lambda params body _ => params.map fun param => ⟨param, [.plain body]⟩
  | .caseOf _ branches _ => branches.map fun branch => ⟨branch.pattern, [.plain branch.body]⟩
  | .letIn declarations body _ =>
      declarations.flatMap fun
        | .value decl => decl.paramSites
        | .destructure pattern _ _ => [⟨pattern, letScope declarations body⟩]
  | _ => []

/-- Where a binding site stands: a parameter of a top-level function, or one of the sites of an
expression in the body. Functions, parameters and sites are numbered. -/
inductive SitePosition where
  | param (function index : Nat)
  | inside (function : Nat) (path : List Nat) (index : Nat)

namespace Module

/-- The binding site at a position, if there is one. -/
def siteAt? (m : Module) : SitePosition → Option BindingSite
  | .param function index => m.valueDecls[function]?.bind fun decl => decl.paramSites[index]?
  | .inside function path index =>
      (m.valueDecls[function]?.bind fun decl => decl.body.at? path).bind fun expr =>
        expr.ownSites[index]?

/-- The binding sites of a module, in the order in which they are examined. -/
def bindingSites (m : Module) : List BindingSite :=
  m.valueDecls.flatMap ValueDecl.paramSites ++ m.exprs.flatMap Expr.ownSites

def positionCases : SitePosition ≃ (Nat × Nat) ⊕ ((Nat × List Nat) × Nat) where
  toFun
    | .param function index => .inl (function, index)
    | .inside function path index => .inr ((function, path), index)
  invFun
    | .inl (function, index) => .param function index
    | .inr ((function, path), index) => .inside function path index
  left_inv := by
    intro position
    cases position <;> rfl
  right_inv := by
    intro label
    cases label <;> rfl

/-- Every binding site is examined, at whatever depth, and none twice. -/
theorem bindingSites_enumerated (m : Module) : Enumerates m.siteAt? m.bindingSites := by
  have functions := Enumerates.byIndex m.valueDecls
  have params := functions.bind fun decl _ => Enumerates.byIndex decl.paramSites
  have exprs := functions.bind fun decl _ => decl.body.subexprs_enumerated
  have sites := exprs.bind fun expr _ => Enumerates.byIndex expr.ownSites
  have lookup : m.siteAt? = fun position => Sum.elim
      (fun label : Nat × Nat => m.valueDecls[label.1]?.bind fun decl => decl.paramSites[label.2]?)
      (fun label : (Nat × List Nat) × Nat =>
        (m.valueDecls[label.1.1]?.bind fun decl => decl.body.at? label.1.2).bind fun expr =>
          expr.ownSites[label.2]?) (positionCases position) := by
    funext position
    cases position <;> rfl
  rw [lookup]
  exact (params.append sites).relabel positionCases

end Module

/-! ### The rule, site by site -/

namespace Rule

/-- One report for each reported binder of the site. -/
def siteReports (site : BindingSite) : List Diagnostic :=
  site.reported.map fun binder =>
    unusedPatternVariable.report ("Unused pattern variable " ++ quoted binder.text) binder.span

theorem unusedBinders_singleton (pattern : Pattern) (scope : List ScopedExpr)
    (mentioned : List String)
    (same : ∀ name, name ∈ mentioned ↔ ∃ part ∈ scope, name ∈ part.expr.localValues) :
    unusedBinders [pattern] mentioned = siteReports ⟨pattern, scope⟩ := by
  have sameNames : ∀ name, name ∈ mentioned ↔ name ∈ (BindingSite.mk pattern scope).mentioned := by
    intro name
    rw [same, BindingSite.mentioned, List.mem_flatMap]
  have onePattern : Pattern.bindersOfList [pattern] = pattern.binders := List.append_nil _
  rw [unusedBinders, siteReports, BindingSite.reported, onePattern]
  simp only [sameNames]

theorem unusedBinders_params (params : List Pattern) (body : Expr) :
    unusedBinders params body.localValues =
      (params.map fun param => BindingSite.mk param [.plain body]).flatMap siteReports := by
  induction params with
  | nil => rfl
  | cons param rest inductionHypothesis =>
      have head := unusedBinders_singleton param [.plain body] body.localValues (by simp)
      rw [List.map_cons, List.flatMap_cons, ← inductionHypothesis, ← head]
      simp [unusedBinders, Pattern.bindersOfList]

theorem mem_localValues_letIn_iff (declarations : List LetDecl) (body : Expr) (span : Span)
    (name : String) :
    name ∈ (Expr.letIn declarations body span).localValues ↔
      ∃ part ∈ Expr.letScope declarations body, name ∈ part.expr.localValues := by
  rw [Expr.mem_localValues_iff_own_or_part]
  simp [Expr.ownNames, Node.ownReferences, Expr.scopedParts]

theorem unusedBindersOf_eq_siteReports (expr : Expr) :
    unusedBindersOf expr = expr.ownSites.flatMap siteReports := by
  cases expr with
  | lambda params body span => exact unusedBinders_params params body
  | caseOf scrutinee branches span =>
      rw [unusedBindersOf, Expr.ownSites, List.flatMap_map]
      congr 1
      funext branch
      exact unusedBinders_singleton branch.pattern [.plain branch.body] _ (by simp)
  | letIn declarations body span =>
      rw [unusedBindersOf, Expr.ownSites, List.flatMap_assoc]
      congr 1
      funext declaration
      cases declaration with
      | value decl => exact unusedBinders_params decl.params decl.body
      | destructure pattern right _ =>
          rw [List.flatMap_singleton]
          exact unusedBinders_singleton pattern (Expr.letScope declarations body) _
            (mem_localValues_letIn_iff declarations body span)
  | _ => rfl

theorem checkUnusedPatternVariable_eq_siteReports (m : Module) (interfaces : Table String Interface) :
    checkUnusedPatternVariable (LintInput.ofModule m interfaces) =
      m.bindingSites.flatMap siteReports := by
  have params : ∀ decl, unusedParams decl = decl.paramSites.flatMap siteReports :=
    fun decl => unusedBinders_params decl.params decl.body
  rw [Module.bindingSites, List.flatMap_append, List.flatMap_assoc, List.flatMap_assoc]
  simp only [← params, ← unusedBindersOf_eq_siteReports]
  rfl

end Rule

/-! ### Occurrence and scoping -/

namespace BindingSite

theorem not_mem_freeNames_of_reported {site : BindingSite} {binder : Name}
    (reported : binder ∈ site.reported) : binder.text ∉ site.freeNames := by
  intro free
  obtain ⟨part, inScope, freeInPart⟩ := List.mem_flatMap.mp free
  have mentionedInPart :=
    Expr.mem_localValues_of_mem_freeNames part.expr (List.mem_filter.mp freeInPart).1
  have notMentioned := of_decide_eq_true (List.mem_filter.mp reported).2
  exact notMentioned (List.mem_flatMap.mpr ⟨part, inScope, mentionedInPart⟩)

theorem mem_freeNames_of_not_reported {site : BindingSite} {binder : Name}
    (isBinder : binder ∈ site.pattern.binders) (notBound : binder.text ∉ site.boundNames)
    (notReported : binder ∉ site.reported) : binder.text ∈ site.freeNames := by
  have mentioned : binder.text ∈ site.mentioned := by
    apply Decidable.byContradiction
    intro notMentioned
    exact notReported (List.mem_filter.mpr ⟨isBinder, decide_eq_true notMentioned⟩)
  obtain ⟨part, inScope, mentionedInPart⟩ := List.mem_flatMap.mp mentioned
  have notBoundAtPart : binder.text ∉ part.boundNames := by
    intro bound
    exact notBound (List.mem_flatMap.mpr ⟨part, inScope, bound⟩)
  have freeInside := fun notBoundInside =>
    Expr.mem_freeNames_of_mem_localValues part.expr notBoundInside mentionedInPart
  have freeInPart := ScopedExpr.mem_freeNames_of_not_mem_boundNames freeInside notBoundAtPart
  exact List.mem_flatMap.mpr ⟨part, inScope, freeInPart⟩

end BindingSite

/-- The rule examines the binding sites of a module position by position, each once, and reports
binders of theirs. None that it reports is free in what its site governs. One that it does not report
is free there, unless its name is bound again inside. -/
theorem Rule.unused_binders_agree_with_scoping (m : Module) (interfaces : Table String Interface) :
    (∃ examined : List BindingSite, Enumerates m.siteAt? examined ∧
      checkUnusedPatternVariable (LintInput.ofModule m interfaces) = examined.flatMap siteReports) ∧
    ∀ position site, m.siteAt? position = some site → ∀ binder ∈ site.pattern.binders,
      (binder ∈ site.reported → binder.text ∉ site.freeNames) ∧
      (binder.text ∉ site.boundNames → binder ∉ site.reported → binder.text ∈ site.freeNames) := by
  refine ⟨⟨m.bindingSites, m.bindingSites_enumerated, ?_⟩, ?_⟩
  · exact checkUnusedPatternVariable_eq_siteReports m interfaces
  · intro position site _ binder isBinder
    exact ⟨BindingSite.not_mem_freeNames_of_reported,
      BindingSite.mem_freeNames_of_not_reported isBinder⟩

/-! ### Shadowing -/

namespace Shadowing

def pairOf (left right : String) : Pattern :=
  .tuple [.var ⟨left, default⟩, .var ⟨right, default⟩] default

def valueNamed (name : String) : Expr := .var ⟨none, ⟨name, default⟩, default⟩

/-- The declaration `(first, second) = pair`. -/
def destructuring : LetDecl :=
  .destructure (pairOf "first" "second") (valueNamed "pair") default

/-- The lambda `\x -> { first | field = x }`. -/
def updater : Expr :=
  .lambda [.var ⟨"x", default⟩]
    (.update ⟨"first", default⟩ [⟨⟨"field", default⟩, valueNamed "x", default⟩] default) default

/-- A function of `pair` and `(x, y)`, whose body is the lambda after the declaration. -/
def sample : Module where
  header := none
  imports := []
  declarations := [.value ⟨none, ⟨"function", default⟩, [.var ⟨"pair", default⟩, pairOf "x" "y"],
    .letIn [destructuring] updater default, default⟩]
  span := default

def secondParam : BindingSite := ⟨pairOf "x" "y", [.plain (.letIn [destructuring] updater default)]⟩

def pairSite : BindingSite := ⟨pairOf "first" "second", Expr.letScope [destructuring] updater⟩

theorem boundNames_pairSite : pairSite.boundNames = ["x"] := by
  simp [pairSite, BindingSite.boundNames, ScopedExpr.boundNames, ScopedExpr.plain,
    ScopedExpr.under, Expr.boundNames_eq, Expr.scopedParts, Expr.letScope, LetDecl.rightSide,
    Pattern.bindersOfList, Pattern.binders, destructuring, updater, valueNamed]

theorem freeNames_secondParam : secondParam.freeNames = ["pair"] := by
  simp [secondParam, BindingSite.freeNames, ScopedExpr.freeNames, ScopedExpr.plain,
    ScopedExpr.under, Expr.freeNames_eq, Expr.scopedParts, Expr.letScope, LetDecl.rightSide,
    LetDecl.binders, Pattern.bindersOfList, Pattern.binders, destructuring, updater, valueNamed,
    pairOf, Expr.ownNames, Node.ownReferences, QualifiedName.qualifierText, Reference.localValue?]

/-- The unused `x` of the parameters goes unreported: the lambda has an `x` of its own. -/
theorem sample_binders_agree_with_scoping :
    sample.siteAt? (.param 0 1) = some secondParam ∧
    sample.siteAt? (.inside 0 [] 0) = some pairSite ∧
    ⟨"y", default⟩ ∈ secondParam.reported ∧ "y" ∉ secondParam.freeNames ∧
    "first" ∉ pairSite.boundNames ∧ ⟨"first", default⟩ ∉ pairSite.reported ∧
    "first" ∈ pairSite.freeNames ∧
    ⟨"x", default⟩ ∉ secondParam.reported ∧ "x" ∉ secondParam.freeNames := by
  obtain ⟨_, agrees⟩ := Rule.unused_binders_agree_with_scoping sample Table.empty
  have ofParam := agrees (.param 0 1) secondParam rfl
  have ofPair := agrees (.inside 0 [] 0) pairSite rfl
  have notBound : "first" ∉ pairSite.boundNames := by
    rw [boundNames_pairSite]
    decide
  have notFree : "x" ∉ secondParam.freeNames := by
    rw [freeNames_secondParam]
    decide
  exact ⟨rfl, rfl, by decide, (ofParam ⟨"y", default⟩ (by decide)).1 (by decide), notBound, by decide,
    (ofPair ⟨"first", default⟩ (by decide)).2 notBound (by decide), by decide, notFree⟩

end Shadowing

end ElmDiagnostics
