import ElmDiagnostics.Json
import ElmDiagnostics.Text.Hex

/-!
Contract: writing a JSON text.

Owns: the compact text of a value, without blanks. Only quotes, backslashes and control
characters are escaped.
-/

set_option autoImplicit false

namespace ElmDiagnostics.Json

/-- A character inside quotes. -/
def escape (character : Char) : List Char :=
  let code := character.toNat
  if character = '"' then ['\\', '"']
  else if character = '\\' then ['\\', '\\']
  else if code < 32 then
    ['\\', 'u', '0', '0', Text.hexDigit (code / 16), Text.hexDigit (code % 16)]
  else [character]

/-- A string in quotes. -/
def quoted (text : String) : String :=
  String.ofList (['"'] ++ text.toList.flatMap escape ++ ['"'])

mutual

/-- The text of a value. -/
def compact : Json → String
  | .null => "null"
  | .bool true => "true"
  | .bool false => "false"
  | .integer value => toString value
  | .decimal value => value.text
  | .string text => quoted text
  | .array items => "[" ++ ",".intercalate (compactItems items) ++ "]"
  | .object members => "\x7b" ++ ",".intercalate (compactMembers members) ++ "\x7d"

/-- The texts of the items of an array. -/
def compactItems : List Json → List String
  | [] => []
  | item :: rest => item.compact :: compactItems rest

/-- The texts of the members of an object. -/
def compactMembers : List (String × Json) → List String
  | [] => []
  | (name, value) :: rest => (quoted name ++ ":" ++ value.compact) :: compactMembers rest

end

end ElmDiagnostics.Json
