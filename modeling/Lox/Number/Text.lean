import Lox.Number.Decimal

/-!
Contract: the four written forms of a number.

Every decision about a form stands in one `Layout` value: `Layout.display` for
printed values and source text, `Layout.tree` for syntax trees, `Layout.token`
for token listings and `Layout.json` for JSON. `Layout.write` carries a layout
out.

Does not own: what JSON has in place of numbers that are not finite.
-/

namespace Lox.Number

-- Powers are the same whatever else is imported.
attribute [local instance (2000)] instPowNat

/-- The decisions that make up a written form of numbers. -/
structure Layout where
  /-- Which whole magnitudes are written with all their digits, and not only with
  as many as read back. -/
  inFull : Nat → Bool
  /-- Whether a number written in full ends in `.0`. -/
  fullPoint : Bool
  /-- Whether a number written in full keeps the sign of negative zero. -/
  fullZeroSign : Bool
  /-- The exponents of the first digit for which the digits are laid out around
  the point; for any other an exponent follows the digits. -/
  positional : Int → Bool
  /-- Whether a whole number with digits around the point ends in `.0`. -/
  wholePoint : Bool
  /-- Which of two equally short and equally near decimals is written. -/
  tie : TieRule

namespace Layout

/-- Printed values: a whole number with all its digits, any other number in the
fewest digits and never with an exponent. -/
def display : Layout where
  inFull := fun _ => true
  fullPoint := false
  fullZeroSign := true
  positional := fun _ => true
  wholePoint := false
  tie := .away

/-- Numbers in a syntax tree: as printed, with `.0` after a whole number. -/
def tree : Layout :=
  { display with fullPoint := true }

/-- Numbers in a token listing: a whole number below `2 ^ 63` with all its digits
and `.0`, without a sign on zero, any other in the fewest digits. -/
def token : Layout :=
  { tree with inFull := (· < 2 ^ (63 : Nat)), fullZeroSign := false }

/-- Numbers in JSON: always the fewest digits, around the point for exponents
from -5 to 15, with `.0` after a whole number there. -/
def json : Layout where
  inFull := (· == 0)
  fullPoint := true
  fullZeroSign := true
  positional := fun exponent => -5 ≤ exponent && exponent ≤ 15
  wholePoint := true
  tie := .toEven

end Layout

namespace Decimal

private def zeros (count : Nat) : List Char :=
  List.replicate count '0'

/-- The digits around the point. A whole number has no point, unless `wholePoint`
asks for `.0`. -/
def positionalText (wholePoint : Bool) (decimal : Decimal) : List Char :=
  let digits := digitChars decimal.digits
  let places := (-decimal.exponent).toNat
  if 0 ≤ decimal.exponent then
    digits ++ zeros decimal.exponent.toNat ++ (if wholePoint then ['.', '0'] else [])
  else if places < digits.length then
    digits.take (digits.length - places) ++ '.' :: digits.drop (digits.length - places)
  else
    '0' :: '.' :: (zeros (places - digits.length) ++ digits)

/-- The exponent of the first digit. -/
def leadingExponent (decimal : Decimal) : Int :=
  decimal.exponent + ((digitChars decimal.digits).length - 1 : Nat)

/-- One digit, the others after a point, and the exponent with its sign. -/
def exponentText (decimal : Decimal) : List Char :=
  let digits := digitChars decimal.digits
  let fraction := digits.drop 1
  digits.take 1 ++ (if fraction.isEmpty then [] else '.' :: fraction) ++
    'e' :: (if decimal.leadingExponent < 0 then '-' else '+') ::
      digitChars decimal.leadingExponent.natAbs

end Decimal

/-- The text of a finite magnitude, without a sign. -/
def Layout.magnitudeText (layout : Layout) (bits : Nat) : List Char :=
  if isWhole bits && layout.inFull (wholePart bits) then
    digitChars (wholePart bits) ++ (if layout.fullPoint then ['.', '0'] else [])
  else
    let decimal := Decimal.shortest layout.tie bits
    if layout.positional decimal.leadingExponent then
      decimal.positionalText layout.wholePoint
    else
      decimal.exponentText

/-- The text of a number. What is not a number has no sign. -/
def Layout.write (layout : Layout) (number : Float) : String :=
  let bits := magnitudeBits number
  if infinityBits < bits then "NaN"
  else
    let sign := if isNegative number && (bits != 0 || layout.fullZeroSign) then ['-'] else []
    String.ofList
      (sign ++ if bits = infinityBits then ['i', 'n', 'f'] else layout.magnitudeText bits)

end Lox.Number
