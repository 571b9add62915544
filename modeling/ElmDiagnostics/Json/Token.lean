import ElmDiagnostics.Json
import ElmDiagnostics.Text.Hex

/-!
Contract: the tokens of a JSON text.

Owns: tokens, the numbers and escapes they are written with, and the scanner that splits a text.

The scanner goes through the text once, one character after the other, and keeps what it has
read of an unfinished token. A number written without fraction and exponent is an integer if it
fits into 64 bits, signed or not; every other number is a decimal, and so is `-0`, whose sign an
integer would lose.
-/

set_option autoImplicit false

namespace ElmDiagnostics.Json

/-- The parts of a JSON text. -/
inductive Token where
  | openArray
  | closeArray
  | openObject
  | closeObject
  | comma
  | colon
  | string (text : String)
  /-- A number, a truth value or `null`. -/
  | atom (value : Json)

/-! ### Numbers -/

/-- The number that decimal digits spell. -/
def digitsValue (digits : List Char) : Nat :=
  digits.foldl (fun value digit => 10 * value + (digit.toNat - '0'.toNat)) 0

/-- The number that a text of decimal digits spells; there must be one digit at least. -/
def natural? (digits : List Char) : Option Nat :=
  if !digits.isEmpty && digits.all Char.isDigit then some (digitsValue digits) else none

/-- The exponent that a number ends with; none stands for zero. -/
def exponent? : List Char → Option Int
  | [] => some 0
  | mark :: rest =>
      if mark = 'e' ∨ mark = 'E' then
        match rest with
        | '-' :: digits => (natural? digits).map fun size => -(size : Int)
        | '+' :: digits => (natural? digits).map fun size => (size : Int)
        | digits => (natural? digits).map fun size => (size : Int)
      else none

/-- A number without fraction and exponent. -/
def wholeNumber (negative : Bool) (size : Nat) : Json :=
  let value : Int := if negative then -(size : Int) else size
  let keepsSign := !(negative && size = 0)
  if keepsSign && -(Int.pow 2 63) ≤ value && value < Int.pow 2 64 then .integer value
  else .decimal ⟨negative, ⟨size, 0⟩⟩

/-- The number that a text without a sign in front spells. -/
def unsigned? (negative : Bool) (text : List Char) : Option Json := do
  let whole := text.takeWhile Char.isDigit
  let size ← natural? whole
  if whole.head? = some '0' ∧ whole ≠ ['0'] then none
  else
    match text.dropWhile Char.isDigit with
    | [] => some (wholeNumber negative size)
    | '.' :: rest => do
        let fraction := rest.takeWhile Char.isDigit
        let _ ← natural? fraction
        let exponent ← exponent? (rest.dropWhile Char.isDigit)
        some (.decimal
          ⟨negative, ⟨digitsValue (whole ++ fraction), exponent - fraction.length⟩⟩)
    | rest => do
        let exponent ← exponent? rest
        some (.decimal ⟨negative, ⟨size, exponent⟩⟩)

/-- The number that a text spells. -/
def number? : List Char → Option Json
  | '-' :: rest => unsigned? true rest
  | text => unsigned? false text

/-- The value that a text without quotes spells. -/
def atom? (text : List Char) : Option Json :=
  if text = "null".toList then some .null
  else if text = "true".toList then some (.bool true)
  else if text = "false".toList then some (.bool false)
  else number? text

/-! ### Strings -/

/-- The code of the character that a backslash and a letter stand for. -/
def escaped? (letter : Char) : Option Nat :=
  if letter = '"' ∨ letter = '\\' ∨ letter = '/' then some letter.toNat
  else if letter = 'b' then some 8
  else if letter = 'f' then some 12
  else if letter = 'n' then some 10
  else if letter = 'r' then some 13
  else if letter = 't' then some 9
  else none

/-- The first half of a character outside the basic plane. -/
def isHighHalf (code : Nat) : Bool := 0xD800 ≤ code && code < 0xDC00

/-- The second half of a character outside the basic plane. -/
def isLowHalf (code : Nat) : Bool := 0xDC00 ≤ code && code < 0xE000

/-- The characters of a string given by codes, two halves making one character. A half without
the other is refused. -/
def characters? : List Nat → Option (List Char)
  | [] => some []
  | [code] => if isHighHalf code || isLowHalf code then none else some [Char.ofNat code]
  | code :: next :: rest =>
      if isHighHalf code then
        if isLowHalf next then
          (characters? rest).map
            (Char.ofNat (0x10000 + (code - 0xD800) * 0x400 + (next - 0xDC00)) :: ·)
        else none
      else if isLowHalf code then none
      else (characters? (next :: rest)).map (Char.ofNat code :: ·)

/-! ### Scanner -/

/-- What has been read of an unfinished token, last character first. -/
inductive Pending where
  | nothing
  /-- A number, a truth value or `null`. -/
  | bare (text : List Char)
  | string (codes : List Nat)
  /-- A string after a backslash. -/
  | escape (codes : List Nat)
  /-- A string inside the four digits of a code. -/
  | code (codes : List Nat) (missing value : Nat)

/-- The state of the scanner: an unfinished token and the finished ones, last token first. -/
structure Scan where
  pending : Pending
  tokens : List Token

namespace Scan

/-- The tokens of a character that ends a bare token: none for a blank. -/
def separator? (character : Char) : Option (List Token) :=
  if character.isWhitespace then some []
  else if character = '[' then some [.openArray]
  else if character = ']' then some [.closeArray]
  else if character = '\x7b' then some [.openObject]
  else if character = '\x7d' then some [.closeObject]
  else if character = ',' then some [.comma]
  else if character = ':' then some [.colon]
  else none

/-- Reads one character. -/
def step (scan : Scan) (character : Char) : Option Scan :=
  match scan.pending with
  | .nothing =>
      match separator? character with
      | some tokens => some ⟨.nothing, tokens ++ scan.tokens⟩
      | none =>
          if character = '"' then some { scan with pending := .string [] }
          else some { scan with pending := .bare [character] }
  | .bare text =>
      match separator? character with
      | some tokens =>
          (atom? text.reverse).map fun value => ⟨.nothing, tokens ++ .atom value :: scan.tokens⟩
      | none => some { scan with pending := .bare (character :: text) }
  | .string codes =>
      if character = '"' then
        (characters? codes.reverse).map fun characters =>
          ⟨.nothing, .string (String.ofList characters) :: scan.tokens⟩
      else if character = '\\' then some { scan with pending := .escape codes }
      else if character.toNat < 32 then none
      else some { scan with pending := .string (character.toNat :: codes) }
  | .escape codes =>
      if character = 'u' then some { scan with pending := .code codes 4 0 }
      else (escaped? character).map fun code => { scan with pending := .string (code :: codes) }
  | .code codes missing value =>
      (Text.hexValue? character).map fun digit =>
        if missing ≤ 1 then { scan with pending := .string ((16 * value + digit) :: codes) }
        else { scan with pending := .code codes (missing - 1) (16 * value + digit) }

/-- The tokens of a text that has been read to its end. -/
def finish? (scan : Scan) : Option (List Token) :=
  match scan.pending with
  | .nothing => some scan.tokens.reverse
  | .bare text => (atom? text.reverse).map fun value => (.atom value :: scan.tokens).reverse
  | _ => none

end Scan

/-- The tokens of a text. -/
def tokens? (text : String) : Option (List Token) :=
  (text.toList.foldlM Scan.step ⟨.nothing, []⟩).bind Scan.finish?

end ElmDiagnostics.Json
