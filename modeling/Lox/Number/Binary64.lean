/-!
Contract: the exact values of binary64 numbers, and correct rounding to them.

A finite magnitude is handled as its bits without the sign, a natural number
below `infinityBits`. Bits and values grow together, and every finite value is
a whole number of units of `2 ^ -1074`, so that rounding and comparing need
natural numbers only.

Owns:
- the sign, the magnitude bits and the exact value of a number;
- rounding of a fraction to the nearest magnitude, halves going to even.

Does not own: decimal digits and their layout.
-/

namespace Lox.Number

-- Powers are the same whatever else is imported.
attribute [local instance (2000)] instPowNat

/-- The magnitude bits of infinity. Smaller magnitude bits are finite values,
larger ones are not numbers. -/
def infinityBits : Nat := 0x7FF0000000000000

/-- The number of units of `2 ^ -1074` in one. -/
def unitsPerOne : Nat := 2 ^ (1074 : Nat)

/-- The bits of a number without its sign. -/
def magnitudeBits (number : Float) : Nat :=
  number.toBits.toNat % 2 ^ (63 : Nat)

/-- Whether the sign bit of a number is set, as it is in negative zero. -/
def isNegative (number : Float) : Bool :=
  2 ^ (63 : Nat) ≤ number.toBits.toNat

/-- The number without a sign that has the given magnitude bits. -/
def ofMagnitudeBits (bits : Nat) : Float :=
  Float.ofBits (UInt64.ofNat bits)

/-- The exact value of finite magnitude bits, counted in units of `2 ^ -1074`.
Below `2 ^ 52` the bits are the count; above, each further exponent doubles it. -/
def units (bits : Nat) : Nat :=
  if bits < 2 ^ (52 : Nat) then bits
  else (2 ^ (52 : Nat) + bits % 2 ^ (52 : Nat)) * 2 ^ (bits / 2 ^ (52 : Nat) - 1)

/-- A quotient rounded to the nearest whole number, a half going to the even one. -/
def roundHalfEven (numerator denominator : Nat) : Nat :=
  let quotient := numerator / denominator
  let twice := 2 * (numerator % denominator)
  if twice < denominator then quotient
  else if denominator < twice then quotient + 1
  else quotient + quotient % 2

/-- The magnitude bits nearest to a fraction, a half going to the even significand.

`shift` is the exponent at which the fraction has a significand of 53 bits. A
significand that rounds up to `2 ^ 53` carries into the exponent by itself, and
what lies beyond the largest finite magnitude is infinite. -/
def nearestBits (numerator denominator : Nat) : Nat :=
  let scaled := numerator * unitsPerOne
  let shift := Nat.log2 (scaled / denominator) - 52
  min infinityBits (shift * 2 ^ (52 : Nat) + roundHalfEven scaled (denominator * 2 ^ shift))

/-- Whether the magnitude is a whole number. -/
def isWhole (bits : Nat) : Bool :=
  units bits % unitsPerOne == 0

/-- The whole part of a finite magnitude. -/
def wholePart (bits : Nat) : Nat :=
  units bits / unitsPerOne

end Lox.Number
