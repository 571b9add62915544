import ElmDiagnostics.Text.Hex
import ElmDiagnostics.Text.Visible

/-!
Contract: text in double quotes, readable on one line.

Owns: the quoted form of a text. Quotes and backslashes are escaped by a backslash, the common
control characters by a letter, and every other character that is not visible by its code point
in braces.
-/

set_option autoImplicit false

namespace ElmDiagnostics.Text

/-- The hexadecimal digits of a number below `16 ^ width`, without leading zeros but for zero itself. -/
def hexDigits : (width value : Nat) → List Char
  | 0, _ => []
  | width + 1, value =>
      if value < 16 then [hexDigit value] else hexDigits width (value / 16) ++ [hexDigit (value % 16)]

/-- The code point of a character in braces. -/
def codePoint (character : Char) : List Char :=
  ['\\', 'u', '\x7b'] ++ hexDigits 6 character.toNat ++ ['\x7d']

/-- A character inside quotes. -/
def escape (character : Char) : List Char :=
  if character = '\x00' then ['\\', '0']
  else if character = '\t' then ['\\', 't']
  else if character = '\r' then ['\\', 'r']
  else if character = '\n' then ['\\', 'n']
  else if character = '"' then ['\\', '"']
  else if character = '\\' then ['\\', '\\']
  else if isVisible character then [character]
  else codePoint character

/-- The text in double quotes. -/
def quote (text : String) : String :=
  String.ofList (['"'] ++ text.toList.flatMap escape ++ ['"'])

end ElmDiagnostics.Text
