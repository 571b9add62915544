import ElmDiagnostics.Json.Token
import ElmDiagnostics.Table

/-!
Contract: reading a JSON text.

Owns: the arrays and objects under way, what is due next in them, and `Json.parse?`.

Arrays and objects that are not finished are kept in a list, so a text may nest them to any
depth. Of several members of one name the last one counts.
-/

set_option autoImplicit false

namespace ElmDiagnostics.Json

/-- An array or object under way, last part first. An object holds the name of the member that
is being read. -/
inductive Frame where
  | array (items : List Json)
  | object (members : List (String × Json)) (name : String)

/-- The value of a frame that the token ends. -/
def Frame.close? : Frame → Token → Option Json
  | .array items, .closeArray => some (.array items.reverse)
  | .object members _, .closeObject => some (.object (Table.ofList members.reverse).entries)
  | _, _ => none

/-- What comes next. -/
inductive Due where
  | value
  /-- The first part of the innermost frame, or its end. -/
  | first
  /-- The name of a member. -/
  | name
  | colon
  /-- A comma, or the end of the innermost frame. -/
  | next

/-- The state of the reader; the innermost frame comes first. -/
inductive Reading where
  | underWay (frames : List Frame) (due : Due)
  | complete (value : Json)

namespace Reading

/-- Puts a value where it belongs. -/
def supply (value : Json) : List Frame → Reading
  | [] => .complete value
  | .array items :: outer => .underWay (.array (value :: items) :: outer) .next
  | .object members name :: outer =>
      .underWay (.object ((name, value) :: members) name :: outer) .next

/-- Reads a value, or the beginning of one. -/
def readValue (frames : List Frame) : Token → Option Reading
  | .atom value => some (supply value frames)
  | .string text => some (supply (.string text) frames)
  | .openArray => some (.underWay (.array [] :: frames) .first)
  | .openObject => some (.underWay (.object [] "" :: frames) .first)
  | _ => none

/-- Reads the name of a member. -/
def readName : List Frame → Token → Option Reading
  | .object members _ :: outer, .string name =>
      some (.underWay (.object members name :: outer) .colon)
  | _, _ => none

/-- Reads the end of the innermost frame. -/
def readEnd : List Frame → Token → Option Reading
  | frame :: outer, token => (frame.close? token).map fun value => supply value outer
  | [], _ => none

/-- Reads a part of the innermost frame. -/
def readPart (frames : List Frame) (token : Token) : Option Reading :=
  match frames with
  | .object _ _ :: _ => readName frames token
  | _ => readValue frames token

/-- What is due after a comma. -/
def dueAfterComma : List Frame → Due
  | .object _ _ :: _ => .name
  | _ => .value

/-- Reads one token. -/
def step (reading : Reading) (token : Token) : Option Reading :=
  match reading with
  | .complete _ => none
  | .underWay frames due =>
      match due, token with
      | .value, _ => readValue frames token
      | .first, _ => readEnd frames token <|> readPart frames token
      | .name, _ => readName frames token
      | .colon, .colon => some (.underWay frames .value)
      | .colon, _ => none
      | .next, .comma => some (.underWay frames (dueAfterComma frames))
      | .next, _ => readEnd frames token

/-- The value that has been read. -/
def value? : Reading → Option Json
  | .complete value => some value
  | .underWay _ _ => none

end Reading

/-- The value that a text spells. -/
def parse? (text : String) : Option Json := do
  let tokens ← tokens? text
  let reading ← tokens.foldlM Reading.step (.underWay [] .value)
  reading.value?

end ElmDiagnostics.Json
