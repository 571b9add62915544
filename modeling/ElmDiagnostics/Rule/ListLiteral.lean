import ElmDiagnostics.Rule.Basic

/-!
Contract: rules for list operations that a list literal makes superfluous.

Owns: consing onto a literal, appending two literals, appending to a literal of one element,
and flattening a literal of literals. Parentheses around operands do not matter.
-/

set_option autoImplicit false

namespace ElmDiagnostics.Rule

/-- The operands of an application of the operator. -/
def operands? (symbol : String) : Expr → Option (Expr × Expr)
  | .binary used left right _ => if used.text = symbol then some (left, right) else none
  | _ => none

/-- The elements of a list literal, parentheses aside. -/
def listItems? (expr : Expr) : Option (List Expr) :=
  match expr.unparen with
  | .list items _ => some items
  | _ => none

/-- An item is consed onto a list literal. -/
def isConsOntoListLiteral (expr : Expr) : Bool :=
  match operands? "::" expr with
  | some (_, right) => right.isListLiteral
  | none => false

/-- Two list literals are appended. -/
def isConcatOfListLiterals (expr : Expr) : Bool :=
  match operands? "++" expr with
  | some (left, right) => left.isListLiteral && right.isListLiteral
  | none => false

/-- Something that is no list literal is appended to a literal of one element. -/
def isConcatOntoSingleton (expr : Expr) : Bool :=
  match operands? "++" expr with
  | some (left, right) =>
      match listItems? left with
      | some [_] => !right.isListLiteral
      | _ => false
  | none => false

/-- Whether the expression is the function `List.concat`, parentheses aside. -/
def isListConcat (expr : Expr) : Bool :=
  match expr.unparen with
  | .var name => name.qualifierText = some "List" && name.base.text = "concat"
  | _ => false

/-- The function and the arguments of a call. -/
def call? : Expr → Option (Expr × List Expr)
  | .call function args _ => some (function, args)
  | _ => none

/-- A literal whose elements are all list literals is flattened. -/
def isFlattenedListLiterals (expr : Expr) : Bool :=
  match call? expr with
  | some (function, args) =>
      if alone : isListConcat function ∧ args.length = 1 then
        -- the guard is what makes it safe to take the first argument
        have isThere : 0 < args.length := alone.2 ▸ Nat.one_pos
        match listItems? args[0] with
        | some items => !items.isEmpty && items.all Expr.isListLiteral
        | none => false
      else false
  | none => false

/-- Reports every expression of the module that has the shape. -/
def reportExprs (rule : Rule) (message : String) (hasShape : Expr → Bool) (input : LintInput) :
    List Diagnostic :=
  (input.tree.exprs.filter hasShape).map fun expr => rule.report message expr.span

/-- Items consed onto list literals. -/
def checkConsOntoListLiteral : LintInput → List Diagnostic :=
  reportExprs .consOntoListLiteral
    "If you cons an item to a literal list, then you can just put the item into the list."
    isConsOntoListLiteral

/-- List literals appended to each other. -/
def checkConcatOfListLiterals : LintInput → List Diagnostic :=
  reportExprs .concatOfListLiterals
    "If you concatenate two lists, then you can merge them into one list."
    isConcatOfListLiterals

/-- Lists appended to a literal of one element. -/
def checkConcatOntoSingleton : LintInput → List Diagnostic :=
  reportExprs .concatOntoSingleton
    ("If you concatenate two lists, but the first item is a single element list, " ++
      "then you should use the cons operator.")
    isConcatOntoSingleton

/-- Flattened literals of list literals. -/
def checkFlattenedListLiterals : LintInput → List Diagnostic :=
  reportExprs .flattenedListLiterals "You should just merge the arrays." isFlattenedListLiterals

end ElmDiagnostics.Rule
