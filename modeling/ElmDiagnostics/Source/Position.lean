/-!
Contract: places in a source file.

Owns: positions, spans, their source order, the successor of a coordinate, and the
one-based text of a span.

Does not own: syntax nodes and the diagnostics that carry spans.

Coordinates are 32-bit. The successor of the largest coordinate does not exist: asking
for it is an error of this module, never a wrapped value.
-/

set_option autoImplicit false

namespace ElmDiagnostics

/-- A zero-based place in a file. Columns count UTF-16 code units, as editors do. -/
structure Position where
  line : UInt32
  column : UInt32
deriving DecidableEq, Repr, Inhabited

/-- The part of a file from `start` up to, and without, `stop`. -/
structure Span where
  start : Position
  stop : Position
deriving DecidableEq, Repr, Inhabited

/-- Why a coordinate could not be computed. -/
inductive CoordinateError where
  /-- The coordinate would not fit into 32 bits. -/
  | overflow
deriving DecidableEq, Repr

/-- The text shown for a coordinate that could not be computed. -/
def CoordinateError.message : CoordinateError → String
  | .overflow => "attempt to add with overflow"

/-- The coordinate that follows `coordinate`. -/
def nextCoordinate (coordinate : UInt32) : Except CoordinateError UInt32 :=
  if coordinate.toNat + 1 < UInt32.size then .ok (coordinate + 1) else .error .overflow

namespace Position

/-- Source order: by line, then by column. -/
def le (left right : Position) : Bool :=
  left.line < right.line || (left.line = right.line && left.column ≤ right.column)

instance : LE Position where
  le left right := left.le right = true

instance (left right : Position) : Decidable (left ≤ right) :=
  inferInstanceAs (Decidable (left.le right = true))

end Position

namespace Span

/-- Source order: by start, then by stop. -/
def le (left right : Span) : Bool :=
  if left.start = right.start then left.stop.le right.stop else left.start.le right.start

instance : LE Span where
  le left right := left.le right = true

instance (left right : Span) : Decidable (left ≤ right) :=
  inferInstanceAs (Decidable (left.le right = true))

/-- The one-based text `line:column-line:column`. -/
def display (span : Span) : Except CoordinateError String := do
  let startLine ← nextCoordinate span.start.line
  let startColumn ← nextCoordinate span.start.column
  let stopLine ← nextCoordinate span.stop.line
  let stopColumn ← nextCoordinate span.stop.column
  return s!"{startLine.toNat}:{startColumn.toNat}-{stopLine.toNat}:{stopColumn.toNat}"

end Span

end ElmDiagnostics
