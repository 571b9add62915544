import ElmDiagnostics.Source.FilePath
import ElmDiagnostics.Text.Hex

/-!
Contract: the URIs that name files.

Owns: `Uri`, ordered by its text, and the file path that a URI stands for.

URIs are in normal form already. Apart from their path they are compared, ordered and printed
as plain text.
-/

set_option autoImplicit false

namespace ElmDiagnostics

/-- A URI in normal form. -/
structure Uri where
  text : String
deriving DecidableEq, Repr, Inhabited

namespace Uri

instance : LE Uri where
  le left right := left.text ≤ right.text

instance : LT Uri where
  lt left right := left.text < right.text

instance : DecidableLE Uri := fun left right => inferInstanceAs (Decidable (left.text ≤ right.text))

instance : DecidableLT Uri := fun left right => inferInstanceAs (Decidable (left.text < right.text))

theorem ext_text {left right : Uri} (same : left.text = right.text) : left = right := by
  cases left
  cases right
  simpa using same

instance : Std.IsLinearOrder Uri where
  le_refl uri := Std.le_refl uri.text
  le_trans _ _ _ := Std.le_trans (α := String)
  le_antisymm _ _ below above := ext_text (Std.le_antisymm below above)
  le_total left right := Std.le_total (a := left.text) (b := right.text)

instance : Std.LawfulOrderLT Uri where
  lt_iff left right := Std.LawfulOrderLT.lt_iff left.text right.text

/-! ### File paths -/

/-- The value of the byte of a hexadecimal digit. -/
def hexDigit? (byte : UInt8) : Option UInt8 :=
  (Text.hexValue? (Char.ofNat byte.toNat)).map UInt8.ofNat

/-- Replaces `%` and two hexadecimal digits by the byte they spell. Any other `%` stays. -/
def percentDecode : List UInt8 → List UInt8
  | first :: high :: low :: more =>
      if first = 37 then
        match hexDigit? high, hexDigit? low with
        | some highValue, some lowValue => (16 * highValue + lowValue) :: percentDecode more
        | _, _ => first :: percentDecode (high :: low :: more)
      else first :: percentDecode (high :: low :: more)
  | short => short

/-- Whether the byte ends the path: `?` or `#`. -/
def endsPath (byte : UInt8) : Bool := byte = 63 || byte = 35

/-- The host of an authority: without user information in front and port behind. -/
def hostOf (authority : List UInt8) : List UInt8 :=
  ((authority.reverse.takeWhile fun byte => byte ≠ 64).reverse).takeWhile fun byte => byte ≠ 58

/-- Whether files of the host are files of this machine. -/
def isLocalHost (host : List UInt8) : Bool :=
  host = [] || host = "localhost".toList.flatMap String.utf8EncodeChar

/-- The part of a URI after the scheme, without an authority that means this machine. Fails
when there is no scheme and when the authority is another machine. -/
def withoutAuthority? (bytes : List UInt8) : Option (List UInt8) :=
  match bytes.dropWhile fun byte => byte ≠ 58 with
  | [] => none
  | _ :: 47 :: 47 :: rest =>
      let inAuthority := fun byte : UInt8 => byte ≠ FilePath.slash && !endsPath byte
      if isLocalHost (hostOf (rest.takeWhile inAuthority)) then some (rest.dropWhile inAuthority)
      else none
  | _ :: rest => some rest

/-- The path of the file the URI names, whatever its scheme; none when the URI has no rooted
path or lies on another machine. -/
def filePath? (uri : Uri) : Option FilePath :=
  match withoutAuthority? (uri.text.toList.flatMap String.utf8EncodeChar) with
  | none => none
  | some rest =>
      let path := rest.takeWhile fun byte => !endsPath byte
      if path.head? = some FilePath.slash then some (FilePath.ofBytes (percentDecode path))
      else none

end Uri

end ElmDiagnostics
