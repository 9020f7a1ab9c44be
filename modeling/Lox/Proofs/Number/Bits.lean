import Mathlib
import Lox.Number.Binary64

/-!
Contract: numbers are their bits.

Owns:
- that a word which is a number or infinite is kept, with its sign and its magnitude;
- that the absolute value of such a number is its magnitude;
- that `magnitudeBits` reads off what `ofMagnitudeBits` puts in, up to infinity.

A number is kept as bits, and bits beyond infinity are all brought to one form. So
`Float.ofBits` unpacks its argument and packs it again, which has to give the same bits.
-/

namespace Lox.Number

open Float.Model
open Float.Model.UnpackedFloat (unpackExponent unpackMantissa unpackSign packComponents Sign)

/-- A word of 64 bits: a sign, an exponent and a mantissa. -/
abbrev Word := BitVec Format.binary64.numBits

variable (word : Word)

/-! ### The parts of a word -/

theorem toNat_unpackMantissa : (unpackMantissa word).toNat = word.toNat % 2 ^ 52 := by
  simp [unpackMantissa, BitVec.extractLsb, BitVec.extractLsb']

theorem toNat_unpackExponent :
    (unpackExponent word).toNat = word.toNat / 2 ^ 52 % 2 ^ 11 := by
  simp [unpackExponent, BitVec.extractLsb, BitVec.extractLsb', Nat.shiftRight_eq_div_pow]

theorem toNat_unpackSign : (unpackSign word).toNat = word.toNat / 2 ^ 63 % 2 := by
  simp [unpackSign, BitVec.extractLsb, BitVec.extractLsb', Nat.shiftRight_eq_div_pow]

theorem toBitVec_ofBitVec (sign : BitVec 1) : (Sign.ofBitVec sign).toBitVec = sign := by
  unfold Sign.ofBitVec
  split
  case isTrue positive => exact positive.symm
  case isFalse negative =>
    show 1#1 = sign
    refine BitVec.eq_of_toNat_eq ?_
    have nonzero : sign.toNat ≠ 0 := fun zero => negative (BitVec.eq_of_toNat_eq zero)
    have small := sign.isLt
    show 1 = sign.toNat
    omega

/-- The parts make up the word. -/
theorem packComponents_parts {exponent : BitVec 11} {mantissa : BitVec 52}
    (exponents : unpackExponent word = exponent) (mantissas : unpackMantissa word = mantissa) :
    packComponents Format.binary64 (Sign.ofBitVec (unpackSign word)) exponent mantissa = word := by
  subst exponents mantissas
  simp only [packComponents, toBitVec_ofBitVec, unpackSign, unpackExponent, unpackMantissa,
    BitVec.extractLsb]
  ext place inside
  grind

theorem toNat_append_one (mantissa : BitVec 52) :
    (1#1 ++ mantissa).toNat = 2 ^ 52 + mantissa.toNat := by
  rw [BitVec.toNat_append, ← Nat.shiftLeft_add_eq_or_of_lt mantissa.isLt]
  simp [Nat.shiftLeft_eq]

/-! ### Words that are numbers or infinite -/

/-- The word of a number below the smallest one with a full significand. -/
theorem pack_subnormal {word : Word} (exponent : unpackExponent word = 0#11)
    (positive : 0 < (unpackMantissa word).toNat) :
    UnpackedFloat.pack Format.binary64
      (.finite (Sign.ofBitVec (unpackSign word)) (unpackMantissa word).toNat
        ((unpackExponent word).toNat - (1023 + 52 : Int) + 1) positive) = word := by
  have small : (unpackMantissa word).toNat < 2 ^ 52 := (unpackMantissa word).isLt
  have biased : (((unpackExponent word).toNat : Int) - (1023 + 52) + 1 +
      (Format.binary64.exponentBias : Nat) +
        (Format.binary64.mantissaBitsWithoutImplicit : Nat)).toNat = 1 := by
    rw [exponent]
    rfl
  have short : (unpackMantissa word).toNat.log2 + 1 ≠ Format.binary64.mantissaBits := by
    have below : ¬52 ≤ (unpackMantissa word).toNat.log2 := fun long => by
      have := (Nat.le_log2 (Nat.ne_of_gt positive)).mp long
      omega
    show _ ≠ 1 + 52
    omega
  unfold UnpackedFloat.pack
  simp only [biased]
  rw [if_neg (by decide), if_neg short]
  refine packComponents_parts word exponent ?_
  rw [BitVec.ofNat_toNat, BitVec.setWidth_eq]

/-- The word of a number with a full significand, of which the first bit is left out. -/
theorem pack_normal {word : Word} (finite : unpackExponent word ≠ -1#11)
    (positive : 0 < (1#1 ++ unpackMantissa word).toNat) :
    UnpackedFloat.pack Format.binary64
      (.finite (Sign.ofBitVec (unpackSign word)) (1#1 ++ unpackMantissa word).toNat
        ((unpackExponent word).toNat - (1023 + 52 : Int)) positive) = word := by
  have small : (unpackMantissa word).toNat < 2 ^ 52 := (unpackMantissa word).isLt
  have bounded : (unpackExponent word).toNat < 2 ^ 11 := (unpackExponent word).isLt
  have notLast : (unpackExponent word).toNat ≠ 2 ^ 11 - 1 := fun last =>
    finite (BitVec.eq_of_toNat_eq (by simpa using last))
  have whole := toNat_append_one (unpackMantissa word)
  have biased : (((unpackExponent word).toNat : Int) - (1023 + 52) +
      (Format.binary64.exponentBias : Nat) +
        (Format.binary64.mantissaBitsWithoutImplicit : Nat)).toNat =
          (unpackExponent word).toNat := by
    show ((unpackExponent word).toNat - (1023 + 52 : Int) + 1023 + 52).toNat = _
    omega
  have full : (1#1 ++ unpackMantissa word).toNat.log2 + 1 = Format.binary64.mantissaBits := by
    have least : 52 ≤ (1#1 ++ unpackMantissa word).toNat.log2 :=
      (Nat.le_log2 (Nat.ne_of_gt positive)).mpr (by omega)
    have below : ¬53 ≤ (1#1 ++ unpackMantissa word).toNat.log2 := fun long => by
      have := (Nat.le_log2 (Nat.ne_of_gt positive)).mp long
      omega
    show _ = 1 + 52
    omega
  have inRange : ¬2 ^ Format.binary64.exponentBits ≤ (unpackExponent word).toNat + 1 := by
    show ¬2 ^ 11 ≤ _
    omega
  unfold UnpackedFloat.pack
  simp only [biased]
  rw [if_neg inRange, if_pos full]
  refine packComponents_parts word ?_ ?_
  · rw [BitVec.ofNat_toNat, BitVec.setWidth_eq]
  · refine BitVec.eq_of_toNat_eq ?_
    rw [whole]
    show _ = (2 ^ 52 + (unpackMantissa word).toNat) % 2 ^ 52
    omega

/-- A word that is a number or infinite stays the same. -/
theorem pack_unpack
    (number : unpackExponent word = -1#11 → unpackMantissa word = 0#52) :
    UnpackedFloat.pack Format.binary64 (UnpackedFloat.unpack Format.binary64 word) = word := by
  unfold UnpackedFloat.unpack
  dsimp only
  split
  case isTrue last =>
    rw [if_pos (number last)]
    exact packComponents_parts word last (number last)
  case isFalse finite =>
    split
    case isTrue first =>
      split
      case isTrue zero => exact packComponents_parts word first zero
      case isFalse => exact pack_subnormal first _
    case isFalse => exact pack_normal finite _

/-- A word with the same parts but no sign is the absolute value. -/
theorem unpack_unsigned {word unsigned : Word}
    (exponents : unpackExponent unsigned = unpackExponent word)
    (mantissas : unpackMantissa unsigned = unpackMantissa word)
    (positive : unpackSign unsigned = 0#1) :
    UnpackedFloat.unpack Format.binary64 unsigned =
      (UnpackedFloat.unpack Format.binary64 word).abs := by
  unfold UnpackedFloat.unpack
  simp only [exponents, mantissas, positive]
  split
  · split <;> rfl
  · split
    · split <;> rfl
    · rfl

/-! ### Numbers -/

/-- A word that is a number or infinite is kept. -/
theorem toBits_ofBits {word : UInt64} (number : word.toNat % 2 ^ 63 ≤ infinityBits) :
    (Float.ofBits word).toBits = word := by
  have same : UnpackedFloat.pack Format.binary64
      (UnpackedFloat.unpack Format.binary64 word.toBitVec) = word.toBitVec := by
    refine pack_unpack _ fun last => BitVec.eq_of_toNat_eq ?_
    have exponent := congrArg BitVec.toNat last
    rw [toNat_unpackExponent] at exponent
    rw [toNat_unpackMantissa]
    change word.toNat / 2 ^ 52 % 2 ^ 11 = 2 ^ 11 - 1 at exponent
    show word.toNat % 2 ^ 52 = 0
    unfold infinityBits at number
    omega
  exact congrArg UInt64.ofBitVec same

section Magnitudes

variable {word : UInt64} (number : word.toNat % 2 ^ 63 ≤ infinityBits)

include number

theorem magnitudeBits_ofBits : magnitudeBits (Float.ofBits word) = word.toNat % 2 ^ 63 := by
  unfold magnitudeBits
  rw [toBits_ofBits number]

theorem isNegative_ofBits : isNegative (Float.ofBits word) = decide (2 ^ 63 ≤ word.toNat) := by
  unfold isNegative
  rw [toBits_ofBits number]

/-- The absolute value of a number has its magnitude and no sign. -/
theorem abs_ofBits : (Float.ofBits word).abs = ofMagnitudeBits (word.toNat % 2 ^ 63) := by
  have kept : (Float.Model.ofBits word).toBits = word := toBits_ofBits number
  have value : (UInt64.ofNat (word.toNat % 2 ^ 63)).toBitVec.toNat = word.toNat % 2 ^ 63 := by
    show word.toNat % 2 ^ 63 % 2 ^ 64 = _
    omega
  have unsigned :=
    @unpack_unsigned word.toBitVec (UInt64.ofNat (word.toNat % 2 ^ 63)).toBitVec ?_ ?_ ?_
  · show Float.ofModel (Float.Model.pack
      (UnpackedFloat.unpack Format.binary64 (Float.Model.ofBits word).toBits.toBitVec).abs) = _
    rw [kept, ← unsigned]
    rfl
  · refine BitVec.eq_of_toNat_eq ?_
    rw [toNat_unpackExponent, toNat_unpackExponent, value]
    show _ = word.toNat / 2 ^ 52 % 2 ^ 11
    omega
  · refine BitVec.eq_of_toNat_eq ?_
    rw [toNat_unpackMantissa, toNat_unpackMantissa, value]
    show _ = word.toNat % 2 ^ 52
    omega
  · refine BitVec.eq_of_toNat_eq ?_
    rw [toNat_unpackSign, value]
    show word.toNat % 2 ^ 63 / 2 ^ 63 % 2 = 0
    omega

end Magnitudes

/-! ### Magnitudes -/

variable {bits : Nat}

theorem toNat_ofNat (bounded : bits ≤ infinityBits) : (UInt64.ofNat bits).toNat = bits := by
  show bits % 2 ^ 64 = bits
  unfold infinityBits at bounded
  omega

theorem toNat_ofNat_mod (bounded : bits ≤ infinityBits) :
    (UInt64.ofNat bits).toNat % 2 ^ 63 = bits := by
  rw [toNat_ofNat bounded]
  unfold infinityBits at bounded
  omega

theorem toBits_ofMagnitudeBits (bounded : bits ≤ infinityBits) :
    (ofMagnitudeBits bits).toBits = UInt64.ofNat bits :=
  toBits_ofBits ((toNat_ofNat_mod bounded).trans_le bounded)

/-- A number has the magnitude it was made of. -/
theorem magnitudeBits_ofMagnitudeBits (bounded : bits ≤ infinityBits) :
    magnitudeBits (ofMagnitudeBits bits) = bits :=
  (magnitudeBits_ofBits ((toNat_ofNat_mod bounded).trans_le bounded)).trans
    (toNat_ofNat_mod bounded)

/-- A number made of a magnitude has no sign. -/
theorem isNegative_ofMagnitudeBits (bounded : bits ≤ infinityBits) :
    isNegative (ofMagnitudeBits bits) = false := by
  refine (isNegative_ofBits ((toNat_ofNat_mod bounded).trans_le bounded)).trans ?_
  rw [toNat_ofNat bounded]
  refine decide_eq_false ?_
  unfold infinityBits at bounded
  omega

end Lox.Number
