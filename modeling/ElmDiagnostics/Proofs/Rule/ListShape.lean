import ElmDiagnostics.Rule.ListLiteral

/-!
Contract: which changes of an expression the rules for list literals do not notice.

Owns: what a change has to keep, of every expression and of the one that a rule looks at; and that
each of the rules then finds the same.

Does not own: the changes themselves. Removing parentheses is one, moving a module another.
-/

set_option autoImplicit false

namespace ElmDiagnostics.Rule

/-- The change keeps what stands inside: list literals stay list literals, item by item, and
`List.concat` stays what it is. -/
structure KeepsLists (change : Expr → Expr) : Prop where
  isListLiteral : ∀ expr, (change expr).isListLiteral = expr.isListLiteral
  listItems : ∀ expr, listItems? (change expr) = (listItems? expr).map (List.map change)
  isListConcat : ∀ expr, isListConcat (change expr) = Rule.isListConcat expr

/-- The change keeps the outermost operator or call of the expression, and changes what it is
applied to. -/
structure KeepsOutermost (change : Expr → Expr) (expr : Expr) : Prop where
  operands : ∀ symbol, operands? symbol (change expr) =
    (operands? symbol expr).map fun pair => (change pair.1, change pair.2)
  call : call? (change expr) = (call? expr).map fun pair => (change pair.1, pair.2.map change)

namespace KeepsLists

variable {change : Expr → Expr} (lists : KeepsLists change) {expr : Expr}
  (outermost : KeepsOutermost change expr)

include lists outermost

theorem isConsOntoListLiteral :
    isConsOntoListLiteral (change expr) = Rule.isConsOntoListLiteral expr := by
  unfold Rule.isConsOntoListLiteral
  rw [outermost.operands]
  cases operands? "::" expr with
  | none => rfl
  | some pair => exact lists.isListLiteral pair.2

theorem isConcatOfListLiterals :
    isConcatOfListLiterals (change expr) = Rule.isConcatOfListLiterals expr := by
  unfold Rule.isConcatOfListLiterals
  rw [outermost.operands]
  cases operands? "++" expr with
  | none => rfl
  | some pair =>
      show ((change pair.1).isListLiteral && (change pair.2).isListLiteral) = _
      rw [lists.isListLiteral, lists.isListLiteral]

theorem isConcatOntoSingleton :
    isConcatOntoSingleton (change expr) = Rule.isConcatOntoSingleton expr := by
  unfold Rule.isConcatOntoSingleton
  rw [outermost.operands]
  cases operands? "++" expr with
  | none => rfl
  | some pair =>
      obtain ⟨left, right⟩ := pair
      simp only [Option.map_some, lists.listItems, lists.isListLiteral]
      -- the number of items is the same
      match listItems? left with
      | none | some [] | some [_] | some (_ :: _ :: _) => rfl

theorem isFlattenedListLiterals :
    isFlattenedListLiterals (change expr) = Rule.isFlattenedListLiterals expr := by
  unfold Rule.isFlattenedListLiterals
  rw [outermost.call]
  cases call? expr with
  | none => rfl
  | some pair =>
      obtain ⟨function, args⟩ := pair
      simp only [Option.map_some, lists.isListConcat, List.length_map, List.getElem_map,
        lists.listItems]
      split
      next alone =>
        cases listItems? (args.get ⟨0, alone.2 ▸ Nat.one_pos⟩) with
        | none => rfl
        | some items =>
            simp only [Option.map_some, List.isEmpty_map, List.all_map, Function.comp_def,
              lists.isListLiteral]
      next => rfl

end KeepsLists

end ElmDiagnostics.Rule
