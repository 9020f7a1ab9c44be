import Lox.Number.Decimal

/-!
Contract: decimals that stand for a magnitude.

Owns:
- that rounding gives back exactly what is a magnitude, and depends on the value of a
  fraction only;
- that `Decimal.shortest` reads back as the magnitude it is made for.

Does not own: texts; that no shorter decimal reads back.
-/

namespace Lox.Number

-- Powers are the same whatever else is imported.
attribute [local instance (2000)] instPowNat

/-! ### Rounding -/

theorem roundHalfEven_of_mul {denominator : Nat} (positive : 0 < denominator) (value : Nat) :
    roundHalfEven (value * denominator) denominator = value := by
  unfold roundHalfEven
  dsimp only
  rw [Nat.mul_mod_left, if_pos (by omega)]
  exact Nat.mul_div_cancel value positive

theorem roundHalfEven_scale {factor : Nat} (positive : 0 < factor)
    (numerator denominator : Nat) :
    roundHalfEven (factor * numerator) (factor * denominator) =
      roundHalfEven numerator denominator := by
  have quotient : factor * numerator / (factor * denominator) = numerator / denominator :=
    Nat.mul_div_mul_left _ _ positive
  have remainder : 2 * (factor * numerator % (factor * denominator)) =
      factor * (2 * (numerator % denominator)) := by
    rw [Nat.mul_mod_mul_left]
    exact Nat.mul_left_comm 2 factor _
  unfold roundHalfEven
  simp only [quotient, remainder, Nat.mul_lt_mul_left positive]

/-- The value of a fraction decides, not how it is written. -/
theorem nearestBits_scale {factor : Nat} (positive : 0 < factor) (numerator denominator : Nat) :
    nearestBits (factor * numerator) (factor * denominator) =
      nearestBits numerator denominator := by
  have quotient : factor * numerator * unitsPerOne / (factor * denominator) =
      numerator * unitsPerOne / denominator := by
    rw [Nat.mul_assoc]
    exact Nat.mul_div_mul_left _ _ positive
  unfold nearestBits
  simp only [quotient]
  rw [Nat.mul_assoc factor, Nat.mul_assoc factor, roundHalfEven_scale positive]

/-- A magnitude is its own nearest one. -/
theorem nearestBits_of_exact {numerator denominator bits : Nat} (positive : 0 < denominator)
    (finite : bits < infinityBits)
    (exact : numerator * unitsPerOne = units bits * denominator) :
    nearestBits numerator denominator = bits := by
  have quotient : numerator * unitsPerOne / denominator = units bits := by
    rw [exact]
    exact Nat.mul_div_cancel _ positive
  unfold nearestBits
  dsimp only
  rw [quotient, exact]
  unfold units
  by_cases small : bits < 2 ^ 52
  · have shift : Nat.log2 bits - 52 = 0 := by
      by_cases zero : bits = 0
      · rw [zero]
        rfl
      · have := (Nat.log2_lt zero).mpr small
        omega
    rw [if_pos small, shift, Nat.pow_zero, Nat.mul_one, roundHalfEven_of_mul positive,
      Nat.zero_mul, Nat.zero_add]
    exact Nat.min_eq_right (Nat.le_of_lt finite)
  · rw [if_neg small]
    generalize significand : 2 ^ 52 + bits % 2 ^ 52 = full
    generalize exponent : bits / 2 ^ 52 - 1 = places
    have bounds : 2 ^ 52 ≤ full ∧ full < 2 ^ 53 := by omega
    have power : 0 < 2 ^ places := Nat.two_pow_pos places
    have shift : Nat.log2 (full * 2 ^ places) - 52 = places := by
      have log : Nat.log2 (full * 2 ^ places) = 52 + places := by
        rw [Nat.log2_eq_iff (Nat.ne_of_gt (Nat.mul_pos (by omega) power))]
        constructor
        · rw [Nat.pow_add]
          exact Nat.mul_le_mul_right _ bounds.1
        · rw [show 52 + places + 1 = 53 + places by omega, Nat.pow_add]
          exact Nat.mul_lt_mul_of_pos_right bounds.2 power
      omega
    have rounded : roundHalfEven (full * 2 ^ places * denominator) (denominator * 2 ^ places) =
        full := by
      rw [Nat.mul_assoc, Nat.mul_comm (2 ^ places)]
      exact roundHalfEven_of_mul (Nat.mul_pos positive power) full
    have whole : places * 2 ^ 52 + full = bits := by omega
    rw [shift, rounded, whole]
    exact Nat.min_eq_right (Nat.le_of_lt finite)

/-- What is nearest is never beyond infinity. -/
theorem nearestBits_le (numerator denominator : Nat) :
    nearestBits numerator denominator ≤ infinityBits :=
  Nat.min_le_left _ _

/-! ### Decimals -/

namespace Decimal

theorem magnitudeBits_le (decimal : Decimal) : decimal.magnitudeBits ≤ infinityBits :=
  nearestBits_le _ _

/-- A zero at the end of the digits can be left out. -/
theorem magnitudeBits_drop_zero {digits : Nat} (zero : digits % 10 = 0) (exponent : Int) :
    magnitudeBits ⟨digits / 10, exponent + 1⟩ = magnitudeBits ⟨digits, exponent⟩ := by
  obtain ⟨rest, rfl⟩ : ∃ rest, digits = 10 * rest := ⟨digits / 10, by omega⟩
  rw [Nat.mul_div_cancel_left rest (by omega)]
  unfold magnitudeBits
  rcases Int.lt_or_le exponent 0 with negative | whole
  · have up : (exponent + 1).toNat = 0 := by omega
    have down : (-exponent).toNat = (-(exponent + 1)).toNat + 1 := by omega
    have none : exponent.toNat = 0 := by omega
    simp only [up, down, none, Nat.pow_zero, Nat.mul_one, Nat.pow_succ']
    exact (nearestBits_scale (by omega) _ _).symm
  · have up : (exponent + 1).toNat = exponent.toNat + 1 := by omega
    have down : (-(exponent + 1)).toNat = 0 := by omega
    have none : (-exponent).toNat = 0 := by omega
    simp only [up, down, none, Nat.pow_succ']
    rw [Nat.mul_left_comm, ← Nat.mul_assoc]

theorem magnitudeBits_stripZeros (decimal : Decimal) :
    decimal.stripZeros.magnitudeBits = decimal.magnitudeBits := by
  fun_induction stripZeros decimal with
  | case1 decimal trailing inductionHypothesis =>
      rw [inductionHypothesis]
      exact magnitudeBits_drop_zero trailing.2 decimal.exponent
  | case2 => rfl

/-- Only a neighbour that reads back is taken. -/
theorem of_nearer? {tie : TieRule} {lower upper decimal : Decimal} {nearness : Ordering}
    {lowerReads upperReads : Bool}
    (found : nearer? tie lower upper nearness lowerReads upperReads = some decimal) :
    decimal = lower ∧ lowerReads = true ∨ decimal = upper ∧ upperReads = true := by
  unfold nearer? at found
  split at found
  case h_1 => cases found
  case h_2 => exact Or.inl ⟨(Option.some.inj found).symm, rfl⟩
  case h_3 => exact Or.inr ⟨(Option.some.inj found).symm, rfl⟩
  case h_4 =>
      have either : decimal = lower ∨ decimal = upper := by
        split at found
        · exact Or.inl (Option.some.inj found).symm
        · exact Or.inr (Option.some.inj found).symm
        · exact Or.inr (Option.some.inj found).symm
        · rw [← Option.some.inj found]
          split
          · exact Or.inl rfl
          · exact Or.inr rfl
      exact either.imp (⟨·, rfl⟩) (⟨·, rfl⟩)

theorem magnitudeBits_of_withDigits? {tie : TieRule} {bits count : Nat} {decimal : Decimal}
    (found : withDigits? tie bits count = some decimal) : decimal.magnitudeBits = bits := by
  unfold withDigits? at found
  generalize neighbours bits (scale bits - count) = near at found
  rcases of_nearer? found with ⟨same, reads⟩ | ⟨same, reads⟩
  · rw [same]
    exact eq_of_beq reads
  · rw [same]
    exact eq_of_beq reads

/-- A whole number of units, written out in powers of ten. -/
theorem magnitudeBits_fives {bits places : Nat} (finite : bits < infinityBits)
    (unit : unitsPerOne = 2 ^ places) :
    magnitudeBits ⟨units bits * 5 ^ places, -(places : Int)⟩ = bits := by
  have down : (- -(places : Int)).toNat = places := by rw [Int.neg_neg, Int.toNat_natCast]
  have up : (-(places : Int)).toNat = 0 := Int.toNat_neg_natCast places
  unfold magnitudeBits
  simp only [down, up, Nat.pow_zero, Nat.mul_one]
  refine nearestBits_of_exact (Nat.pow_pos (by omega)) finite ?_
  rw [unit, Nat.mul_assoc, ← Nat.mul_pow]

theorem magnitudeBits_exact {bits : Nat} (finite : bits < infinityBits) :
    (exact bits).magnitudeBits = bits :=
  @magnitudeBits_fives bits 1074 finite (by rw [unitsPerOne])

/-- The shortest decimal for a magnitude reads back as it. -/
theorem magnitudeBits_shortest (tie : TieRule) {bits : Nat} (finite : bits < infinityBits) :
    (shortest tie bits).magnitudeBits = bits := by
  unfold shortest
  rw [magnitudeBits_stripZeros]
  cases found : (List.range 17).findSome? fun count => withDigits? tie bits (count + 1) with
  | none => exact magnitudeBits_exact finite
  | some decimal =>
      obtain ⟨count, _, taken⟩ := List.exists_of_findSome?_eq_some found
      exact magnitudeBits_of_withDigits? taken

end Decimal

end Lox.Number
