import ElmDiagnostics.Proofs.Outcome
import ElmDiagnostics.QuickFix

/-!
Contract: a payload keeps the whole fix that it stores.

Owns: reading back every part of the stored form, and that different fixes are stored differently.

Does not own: payloads in any other form that the reader takes.
-/

set_option autoImplicit false

namespace ElmDiagnostics.QuickFix

theorem coordinate?_integer (coordinate : UInt32) :
    coordinate? (.integer coordinate.toNat) = some coordinate := by
  show (if coordinate.toNat < UInt32.size then _ else _) = _
  rw [if_pos coordinate.toNat_lt_size, UInt32.ofNat_toNat]

theorem position?_positionJson (position : Position) :
    position? (positionJson position) = some position := by
  show (coordinate? (.integer position.line.toNat)).bind (fun line =>
    (coordinate? (.integer position.column.toNat)).bind fun column =>
      some (Position.mk line column)) = _
  rw [coordinate?_integer, coordinate?_integer]
  rfl

theorem range?_rangeJson (range : Span) : range? (rangeJson range) = some range := by
  show (position? (positionJson range.start)).bind (fun start =>
    (position? (positionJson range.stop)).bind fun stop => some (Span.mk start stop)) = _
  rw [position?_positionJson, position?_positionJson]
  rfl

theorem edit?_editJson (edit : TextEdit) : edit? (editJson edit) = some edit := by
  show (range? (rangeJson edit.range)).bind (fun range =>
    some (TextEdit.mk range edit.newText)) = _
  rw [range?_rangeJson]
  rfl

theorem edits?_array (edits : List TextEdit) :
    edits? (.array (edits.map editJson)) = some edits := by
  show (edits.map editJson).mapM edit? = some edits
  induction edits with
  | nil => rfl
  | cons edit rest inductionHypothesis =>
      rw [List.map_cons, List.mapM_cons, edit?_editJson, inductionHypothesis]
      rfl

theorem ofPayload?_toPayload (fix : QuickFix) : ofPayload? fix.toPayload = some fix := by
  show (edits? (.array (fix.edits.map editJson))).bind (fun edits =>
    some (QuickFix.mk fix.title fix.isPreferred edits)) = _
  rw [edits?_array]
  rfl

theorem toPayload_injective : Function.Injective toPayload :=
  injective_of_readBack ofPayload?_toPayload

end ElmDiagnostics.QuickFix
