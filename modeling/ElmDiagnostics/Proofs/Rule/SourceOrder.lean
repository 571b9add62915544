import ElmDiagnostics.Proofs.Rule.Parentheses
import ElmDiagnostics.Proofs.Rule.ReportCode
import ElmDiagnostics.Proofs.Syntax.Layout

/-!
Contract: rules that look at one expression after the other report in source order.

Owns: which rules these are; that each of their reports has the span of the expression it is about;
and that their reports on a well laid out module start one after the other.

Does not own: what it means to be well laid out, and the order of expressions and binders in a tree.
-/

set_option autoImplicit false

namespace ElmDiagnostics

namespace Rule

/-! ### Reports at expressions -/

theorem range_report (rule : Rule) (message : String) (range : Span) :
    (rule.report message range).range = range := by
  rw [report_eq]
  rfl

/-- The rules that look at one expression after the other. -/
def exprRules : List Rule :=
  [.booleanCase, .consOntoListLiteral, .concatOfListLiterals, .concatOntoSingleton,
    .flattenedListLiterals, .operatorCall]

/-- The reports are made expression by expression, each with the span of its expression. -/
def ReportsAtExprs (m : Module) (reports : List Diagnostic) : Prop :=
  ∃ reportsOf : Expr → List Diagnostic, reports = m.exprs.flatMap reportsOf ∧
    ∀ expr, ∀ report ∈ reportsOf expr, report.range = expr.span

theorem reportsAtExprs_reportExprs (rule : Rule) (message : String) (hasShape : Expr → Bool)
    (input : LintInput) : ReportsAtExprs input.tree (reportExprs rule message hasShape input) := by
  refine ⟨_, reportExprs_eq_flatMap rule message hasShape input, ?_⟩
  intro expr report isReport
  split at isReport
  · rw [List.mem_singleton.mp isReport, range_report]
  · exact absurd isReport List.not_mem_nil

theorem range_of_mem_operatorCallOf {expr : Expr} {report : Diagnostic}
    (isReport : report ∈ operatorCallOf expr) : report.range = expr.span := by
  unfold operatorCallOf at isReport
  split at isReport
  · split at isReport
    · rw [List.mem_singleton.mp isReport, range_report]
      rfl
    · exact absurd isReport List.not_mem_nil
  · exact absurd isReport List.not_mem_nil

theorem check_exprRule {rule : Rule} (isExprRule : rule ∈ exprRules) (input : LintInput) :
    ∃ reports, rule.check input = .ok reports ∧ ReportsAtExprs input.tree reports := by
  simp only [exprRules, List.mem_cons, List.not_mem_nil, or_false] at isExprRule
  rcases isExprRule with rfl | rfl | rfl | rfl | rfl | rfl
  case inr.inr.inr.inr.inr =>
    exact ⟨_, rfl, operatorCallOf, rfl, fun _ _ isReport => range_of_mem_operatorCallOf isReport⟩
  all_goals exact ⟨_, rfl, reportsAtExprs_reportExprs _ _ _ input⟩

/-! ### Source order -/

theorem ReportsAtExprs.sorted {m : Module} {reports : List Diagnostic}
    (atExprs : ReportsAtExprs m reports)
    (exprsSorted : (m.exprs.map (·.span.start)).Pairwise (· ≤ ·)) :
    (reports.map (·.range.start)).Pairwise (· ≤ ·) := by
  obtain ⟨reportsOf, rfl, atExpr⟩ := atExprs
  rw [List.pairwise_map] at exprsSorted ⊢
  refine List.pairwise_flatMap.mpr ⟨?_, ?_⟩
  · intro expr _
    refine List.pairwise_of_forall_mem_list ?_
    intro first isFirst second isSecond
    rw [atExpr expr first isFirst, atExpr expr second isSecond]
    exact Position.le_refl _
  · refine exprsSorted.imp ?_
    intro earlier later inOrder first isFirst second isSecond
    rw [atExpr earlier first isFirst, atExpr later second isSecond]
    exact inOrder

end Rule

/-- Binders and expressions come in source order. A pattern lists every variable, record field and
alias that it binds, each place once, and if it is well laid out their spans do not decrease. In a
well laid out module the starts of its expressions do not decrease from one to the next, so each
rule that looks at one expression after the other reports in the order of the text. -/
theorem binders_and_reports_in_source_order :
    (∀ pattern : Pattern, Enumerates pattern.binderAt? pattern.binders ∧
      ((Fragment.pattern pattern).WellLaidOut →
        (pattern.binders.map (·.span)).Pairwise (· ≤ ·))) ∧
    ∀ m : Module, (Fragment.module m).WellLaidOut →
      (m.exprs.map (·.span.start)).Pairwise (· ≤ ·) ∧
      ∀ rule ∈ Rule.exprRules, ∀ interfaces : Table String Interface,
        ∃ reports, rule.check (.ofModule m interfaces) = .ok reports ∧
          (reports.map (·.range.start)).Pairwise (· ≤ ·) := by
  constructor
  · intro pattern
    exact ⟨pattern.binders_enumerated, Pattern.binders_sorted⟩
  · intro m laidOut
    refine ⟨Module.exprs_sorted laidOut, ?_⟩
    intro rule isExprRule interfaces
    obtain ⟨reports, checked, atExprs⟩ := Rule.check_exprRule isExprRule (.ofModule m interfaces)
    exact ⟨reports, checked, atExprs.sorted (Module.exprs_sorted laidOut)⟩

/-! ### A function of three lines -/

namespace ThreeLines

def columns (line first last : UInt32) : Span := ⟨⟨line, first⟩, ⟨line, last⟩⟩

/-- The pattern `( a, { b } as c )` on the second line. -/
def param : Pattern :=
  .tuple [.var ⟨"a", columns 1 8 9⟩,
    .named (.record [⟨"b", columns 1 13 14⟩] (columns 1 11 16)) ⟨"c", columns 1 20 21⟩
      (columns 1 11 21)] (columns 1 6 23)

/-- The expression `[] ++ []` on the third line. -/
def joined (column : UInt32) : Expr :=
  .binary ⟨"++", columns 2 (column + 3) (column + 5)⟩ (.list [] (columns 2 column (column + 2)))
    (.list [] (columns 2 (column + 6) (column + 8))) (columns 2 column (column + 8))

/-- A signature, a parameter, and a `let` with an expression before and after `in`. -/
def sample : Module where
  header := none
  imports := []
  declarations := [.value ⟨some ⟨⟨"twice", columns 0 0 5⟩, .unit (columns 0 8 10), columns 0 0 10⟩,
    ⟨"twice", columns 1 0 5⟩, [param],
    .letIn [.value ⟨none, ⟨"d", columns 2 8 9⟩, [], joined 12, columns 2 8 20⟩] (joined 24)
      (columns 2 4 32), ⟨⟨0, 0⟩, ⟨2, 32⟩⟩⟩]
  span := ⟨⟨0, 0⟩, ⟨2, 32⟩⟩

theorem param_wellLaidOut : (Fragment.pattern param).WellLaidOut :=
  Fragment.wellLaidOut_of_isLaidOut (by decide : (Fragment.pattern param).isLaidOut 3 = true)

theorem sample_wellLaidOut : (Fragment.module sample).WellLaidOut :=
  Fragment.wellLaidOut_of_isLaidOut (by decide : (Fragment.module sample).isLaidOut 5 = true)

/-- The binders of the parameter are `a`, `b` and `c`, and the two expressions are reported one
after the other. -/
theorem sample_in_source_order :
    (Fragment.pattern param).WellLaidOut ∧ param.binders.map (·.text) = ["a", "b", "c"] ∧
    (param.binders.map (·.span)).Pairwise (· ≤ ·) ∧
    (Fragment.module sample).WellLaidOut ∧
    (sample.exprs.map (·.span.start)).Pairwise (· ≤ ·) ∧
    ∃ reports, Rule.concatOfListLiterals.check (.ofModule sample .empty) = .ok reports ∧
      reports.map (·.range) = [columns 2 12 20, columns 2 24 32] ∧
      (reports.map (·.range.start)).Pairwise (· ≤ ·) := by
  obtain ⟨ofPattern, ofModule⟩ := binders_and_reports_in_source_order
  obtain ⟨exprsSorted, reportsSorted⟩ := ofModule sample sample_wellLaidOut
  obtain ⟨reports, checked, sorted⟩ := reportsSorted .concatOfListLiterals (by decide) .empty
  refine ⟨param_wellLaidOut, rfl, (ofPattern param).2 param_wellLaidOut, sample_wellLaidOut,
    exprsSorted, reports, checked, ?_, sorted⟩
  obtain rfl := Except.ok.inj checked
  rfl

end ThreeLines

end ElmDiagnostics
