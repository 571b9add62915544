/-!
Contract: decimal numbers and the text they are shown as.

Owns: exact decimals, the nearest number with a 53-bit significand, the fewest digits that
still name it, and its notation.

A decimal is shown as the nearest binary number of double precision is: by the fewest digits
that read back as that number, the nearest ones if several do, positionally from `0.00001` up to
sixteen digits before the point, and with a signed exponent otherwise. Zero keeps its sign.
-/

set_option autoImplicit false

namespace ElmDiagnostics

/-- The fraction `num / den` of positive numbers. -/
structure Ratio where
  num : Nat
  den : Nat
deriving DecidableEq, Repr

namespace Ratio

/-- The fraction times `base ^ exponent`. -/
def scale (ratio : Ratio) (base : Nat) (exponent : Int) : Ratio :=
  match exponent with
  | .ofNat up => ⟨ratio.num * base.pow up, ratio.den⟩
  | .negSucc down => ⟨ratio.num, ratio.den * base.pow (down + 1)⟩

/-- The whole part. -/
def floor (ratio : Ratio) : Nat := ratio.num / ratio.den

/-- Whether the fraction is nearer to its whole part than to the next number; a tie goes to the
even one of the two. -/
def roundsDown (ratio : Ratio) : Bool :=
  let rest := 2 * (ratio.num % ratio.den)
  rest < ratio.den || (rest = ratio.den && ratio.floor % 2 = 0)

/-- The nearest whole number; a tie goes to the even one. -/
def round (ratio : Ratio) : Nat := if ratio.roundsDown then ratio.floor else ratio.floor + 1

end Ratio

/-- The number `significand / 2 ^ shift`. -/
structure Binary where
  significand : Nat
  shift : Int
deriving DecidableEq, Repr

namespace Binary

/-- The shift that leaves 53 bits before the point, and no more than 1074 in all. -/
def shiftFor (ratio : Ratio) : Int :=
  let guess : Int := 52 + (ratio.den.log2 : Int) - (ratio.num.log2 : Int)
  let shift := if (ratio.scale 2 guess).floor < Nat.pow 2 52 then guess + 1 else guess
  if shift ≤ 1074 then shift else 1074

/-- The nearest number of double precision. -/
def nearest (ratio : Ratio) : Binary :=
  let shift := shiftFor ratio
  let significand := (ratio.scale 2 shift).round
  if significand = Nat.pow 2 53 then ⟨Nat.pow 2 52, shift - 1⟩ else ⟨significand, shift⟩

/-- The number as a fraction. -/
def toRatio (number : Binary) : Ratio := (Ratio.mk number.significand 1).scale 2 (-number.shift)

end Binary

/-- The digits `digits` times `10 ^ exponent`. -/
structure Scientific where
  digits : Nat
  exponent : Int
deriving DecidableEq, Repr

namespace Scientific

/-- The exponent of the first digit of a fraction above `10 ^ (-400)`. -/
def leadingExponent (ratio : Ratio) : Int :=
  if ratio.den ≤ ratio.num then ((Nat.toDigits 10 ratio.floor).length : Int) - 1
  else
    match (List.range 400).find? fun places => ratio.den ≤ ratio.num * Nat.pow 10 (places + 1) with
    | some places => -((places : Int) + 1)
    | none => -400

/-- The number of that many digits that names `number`, if there is one: of the two neighbours of
its value, one that reads back as `number`, the nearer one first. -/
def withDigits? (number : Binary) (count : Nat) : Option Scientific :=
  let value := number.toRatio
  let exponent := leadingExponent value - (count : Int) + 1
  let onGrid := value.scale 10 (-exponent)
  let names := fun digits : Nat => Binary.nearest ((Ratio.mk digits 1).scale 10 exponent) = number
  let candidates :=
    if onGrid.roundsDown then [onGrid.floor, onGrid.floor + 1]
    else [onGrid.floor + 1, onGrid.floor]
  (candidates.find? names).map fun digits => ⟨digits, exponent⟩

/-- The number of fewest digits that names `number`; seventeen are always enough. -/
def shortest (number : Binary) : Scientific :=
  ((List.range 17).findSome? fun count => withDigits? number (count + 1)).getD
    ⟨number.significand, 0⟩

/-- Moves the zeros at the end of the digits into the exponent, up to `fuel` of them. -/
def trim : (fuel : Nat) → Scientific → Scientific
  | 0, number => number
  | fuel + 1, number =>
      if number.digits % 10 = 0 then trim fuel ⟨number.digits / 10, number.exponent + 1⟩ else number

/-- Zeros in a row. -/
def zeros (count : Nat) : List Char := List.replicate count '0'

/-- The exponent of a number that is not written positionally, with its sign. -/
def exponentText (exponent : Int) : List Char :=
  if 0 < exponent then '+' :: (toString exponent).toList else (toString exponent).toList

/-- The text of a positive number. -/
def text (number : Scientific) : List Char :=
  let number := number.trim 20
  let digits := Nat.toDigits 10 number.digits
  let point := (digits.length : Int) + number.exponent
  if 0 ≤ number.exponent ∧ point ≤ 16 then digits ++ zeros number.exponent.toNat ++ ['.', '0']
  else if 0 < point ∧ point ≤ 16 then
    digits.take point.toNat ++ ['.'] ++ digits.drop point.toNat
  else if -5 < point ∧ point ≤ 0 then ['0', '.'] ++ zeros (-point).toNat ++ digits
  else
    let fraction := if digits.length = 1 then [] else '.' :: digits.drop 1
    digits.take 1 ++ fraction ++ ['e'] ++ exponentText (point - 1)

/-- The value of a number as a fraction. -/
def toRatio (number : Scientific) : Ratio := (Ratio.mk number.digits 1).scale 10 number.exponent

end Scientific

/-- A decimal number as it is written: a sign, digits and an exponent. -/
structure Decimal where
  negative : Bool
  size : Scientific
deriving DecidableEq, Repr

/-- The text a decimal is shown as. -/
def Decimal.text (decimal : Decimal) : String :=
  let number := Binary.nearest decimal.size.toRatio
  let digits :=
    if number.significand = 0 then ['0', '.', '0'] else (Scientific.shortest number).text
  String.ofList (if decimal.negative then '-' :: digits else digits)

end ElmDiagnostics
