import ElmDiagnostics.Diagnostic.Basic
import ElmDiagnostics.Source.Uri

/-!
Contract: edits that resolve a diagnostic.

Owns: quick fixes, their stored form inside a diagnostic's payload, the lenient reader of that
form, and the code actions a list of diagnostics offers.

The stored form is an object. The reader also takes every structure as the array of its
parts, ignores unknown members, and takes a missing preference as "not preferred".
-/

set_option autoImplicit false

namespace ElmDiagnostics

/-- Replaces a range of a file by a text. -/
structure TextEdit where
  range : Span
  newText : String
deriving DecidableEq, Repr

/-- The edit that deletes a range. -/
def TextEdit.delete (range : Span) : TextEdit := ⟨range, ""⟩

/-- A titled list of edits; editors apply a preferred fix without asking. -/
structure QuickFix where
  title : String
  isPreferred : Bool
  edits : List TextEdit
deriving DecidableEq, Repr

namespace QuickFix

/-- The member of a payload that holds the fix. -/
def payloadKey : String := "elmLsQuickFix"

/-- A fix that editors apply without asking. -/
def preferred (title : String) (edits : List TextEdit) : QuickFix := ⟨title, true, edits⟩

/-! ### Stored form -/

/-- A position as the client writes it. -/
def positionJson (position : Position) : Json :=
  .object [("character", .integer position.column.toNat), ("line", .integer position.line.toNat)]

/-- A range as the client writes it. -/
def rangeJson (range : Span) : Json :=
  .object [("end", positionJson range.stop), ("start", positionJson range.start)]

/-- An edit as the client writes it. -/
def editJson (edit : TextEdit) : Json :=
  .object [("newText", .string edit.newText), ("range", rangeJson edit.range)]

/-- The fix itself. -/
def toJson (fix : QuickFix) : Json :=
  .object [("edits", .array (fix.edits.map editJson)), ("isPreferred", .bool fix.isPreferred),
    ("title", .string fix.title)]

/-- The payload that stores the fix. -/
def toPayload (fix : QuickFix) : Json := .object [(payloadKey, fix.toJson)]

/-! ### Reader -/

/-- The two parts of a structure written as an object or as an array. -/
def pair? (first second : String) : Json → Option (Json × Json)
  | .array [firstPart, secondPart] => some (firstPart, secondPart)
  | .object members => do
      let firstPart ← members.lookup first
      let secondPart ← members.lookup second
      return (firstPart, secondPart)
  | _ => none

/-- Reads a text. -/
def string? : Json → Option String
  | .string text => some text
  | _ => none

/-- Reads a truth value. -/
def bool? : Json → Option Bool
  | .bool value => some value
  | _ => none

/-- Reads a coordinate: an integer that fits into 32 bits. -/
def coordinate? : Json → Option UInt32
  | .integer (.ofNat value) => if value < UInt32.size then some (UInt32.ofNat value) else none
  | _ => none

/-- Reads a position. -/
def position? (value : Json) : Option Position := do
  let (line, character) ← pair? "line" "character" value
  let line ← coordinate? line
  let column ← coordinate? character
  return { line, column }

/-- Reads a range. -/
def range? (value : Json) : Option Span := do
  let (start, stop) ← pair? "start" "end" value
  let start ← position? start
  let stop ← position? stop
  return { start, stop }

/-- Reads an edit. -/
def edit? (value : Json) : Option TextEdit := do
  let (range, newText) ← pair? "range" "newText" value
  let range ← range? range
  let newText ← string? newText
  return { range, newText }

/-- Reads a list of edits. -/
def edits? : Json → Option (List TextEdit)
  | .array items => items.mapM edit?
  | _ => none

/-- Reads a fix from its parts. -/
def ofParts? (title isPreferred edits : Json) : Option QuickFix := do
  let title ← string? title
  let isPreferred ← bool? isPreferred
  let edits ← edits? edits
  return { title, isPreferred, edits }

/-- Reads a fix. -/
def ofJson? : Json → Option QuickFix
  | .array [title, isPreferred, edits] => ofParts? title isPreferred edits
  | .object members => do
      let title ← members.lookup "title"
      let edits ← members.lookup "edits"
      ofParts? title ((members.lookup "isPreferred").getD (.bool false)) edits
  | _ => none

/-- Reads the fix stored in a payload; none for any other payload. -/
def ofPayload? (payload : Json) : Option QuickFix := (payload.member? payloadKey).bind ofJson?

end QuickFix

/-! ### Code actions -/

/-- What the client offers for a diagnostic: the edits of each file, under a title. -/
structure CodeAction where
  title : String
  diagnostics : List Diagnostic
  changes : List (Uri × List TextEdit)
  isPreferred : Bool

/-- Offers a fix for a diagnostic of a file. -/
def QuickFix.toAction (fix : QuickFix) (uri : Uri) (diagnostic : Diagnostic) : CodeAction where
  title := fix.title
  diagnostics := [diagnostic]
  changes := [(uri, fix.edits)]
  isPreferred := fix.isPreferred

/-- The fix a diagnostic carries, if it edits anything. -/
def Diagnostic.quickFix? (diagnostic : Diagnostic) : Option QuickFix :=
  (diagnostic.data.bind QuickFix.ofPayload?).filter fun fix => !fix.edits.isEmpty

/-- The code actions that the diagnostics of a file offer, in their order. -/
def quickFixes (uri : Uri) (diagnostics : List Diagnostic) : List CodeAction :=
  diagnostics.filterMap fun diagnostic =>
    diagnostic.quickFix?.map fun fix => fix.toAction uri diagnostic

end ElmDiagnostics
