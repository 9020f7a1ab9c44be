import Lox.Number.Binary64

/-!
Contract: decimal numerals, and the shortest numeral that stands for a magnitude.

Owns:
- `Decimal`, a natural number of digits times a power of ten, and its nearest
  binary64 magnitude;
- reading a decimal with an optional fraction;
- `Decimal.shortest`, the decimal of fewest digits that reads back as a given
  magnitude, the nearest of those when there are several.

Does not own: how digits, point and exponent are arranged in a text.
-/

namespace Lox.Number

-- Powers are the same whatever else is imported.
attribute [local instance (2000)] instPowNat

/-- The decimal digits of a natural number. -/
def digitChars (value : Nat) : List Char :=
  Nat.toDigits 10 value

/-- The decimal `digits * 10 ^ exponent`. -/
structure Decimal where
  digits : Nat
  exponent : Int
deriving DecidableEq, Repr

/-- Which of two equally near decimals of the same length is taken. -/
inductive TieRule where
  | toEven
  | away
deriving DecidableEq, Repr

namespace Decimal

/-- The magnitude bits nearest to a decimal. -/
def magnitudeBits (decimal : Decimal) : Nat :=
  nearestBits (decimal.digits * 10 ^ decimal.exponent.toNat)
    (10 ^ (-decimal.exponent).toNat)

/-- The decimal written as whole digits and fraction digits. -/
def ofDigitChars (whole fraction : List Char) : Decimal where
  digits := Nat.ofDigitChars 10 (whole ++ fraction) 0
  exponent := -(fraction.length : Int)

/-- The number that a decimal denotes, correctly rounded. -/
def toNumber (decimal : Decimal) : Float :=
  ofMagnitudeBits decimal.magnitudeBits

/-- The least `scale` for which the magnitude, when it is not zero, lies below
`10 ^ scale`: the number of digits of its whole part, or minus the number of
zeros between the point and its first digit. -/
def scale (bits : Nat) : Int :=
  let count := units bits
  if unitsPerOne ≤ count then
    (digitChars (count / unitsPerOne)).length
  else
    1 - (digitChars ((unitsPerOne - 1) / count)).length

/-- The decimals with the given exponent next to a magnitude: the one at or below
it, the one above it, and how twice the distance to the first compares with the
distance between the two. -/
def neighbours (bits : Nat) (exponent : Int) : Decimal × Decimal × Ordering :=
  let numerator := units bits * 10 ^ (-exponent).toNat
  let denominator := unitsPerOne * 10 ^ exponent.toNat
  let lower := numerator / denominator
  (⟨lower, exponent⟩, ⟨lower + 1, exponent⟩,
    compare (2 * (numerator % denominator)) denominator)

/-- Drop the trailing zeros of the digits into the exponent. -/
def stripZeros (decimal : Decimal) : Decimal :=
  if decimal.digits ≠ 0 ∧ decimal.digits % 10 = 0 then
    stripZeros ⟨decimal.digits / 10, decimal.exponent + 1⟩
  else
    decimal
termination_by decimal.digits
decreasing_by omega

/-- The nearer of two neighbours of a magnitude, of those that read back as it. -/
def nearer? (tie : TieRule) (lower upper : Decimal) (nearness : Ordering)
    (lowerReads upperReads : Bool) : Option Decimal :=
  match lowerReads, upperReads with
  | false, false => none
  | true, false => some lower
  | false, true => some upper
  | true, true =>
      match nearness, tie with
      | .lt, _ => some lower
      | .gt, _ => some upper
      | .eq, .away => some upper
      | .eq, .toEven => some (if lower.digits % 2 = 0 then lower else upper)

/-- The nearest decimal of at most `count` digits that reads back as the
magnitude, if one of that length does. -/
def withDigits? (tie : TieRule) (bits count : Nat) : Option Decimal :=
  let near := neighbours bits (scale bits - count)
  nearer? tie near.1 near.2.1 near.2.2 (near.1.magnitudeBits == bits)
    (near.2.1.magnitudeBits == bits)

/-- The exact decimal value of a magnitude. -/
def exact (bits : Nat) : Decimal :=
  ⟨units bits * 5 ^ (1074 : Nat), -1074⟩

/-- The decimal of fewest digits that reads back as a finite magnitude other than
zero. Seventeen digits are enough; past them the exact value stands in, which
reads back as well. -/
def shortest (tie : TieRule) (bits : Nat) : Decimal :=
  (((List.range 17).findSome? fun count => withDigits? tie bits (count + 1)).getD
    (exact bits)).stripZeros

end Decimal

end Lox.Number
