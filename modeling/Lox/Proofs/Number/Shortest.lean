import Mathlib
import Lox.Proofs.Number.Nearest

/-!
Contract: the shortest decimal is the shortest one.

Owns:
- the exact value of a magnitude and of a decimal;
- that decimals read as magnitudes in the order of their values;
- that seventeen digits are enough, and that no decimal with fewer digits than
  `Decimal.shortest` reads back as the magnitude.

Does not own: texts.
-/

namespace Lox.Number

-- Powers are the same whatever else is imported.
attribute [local instance (2000)] instPowNat

/-! ### Values -/

/-- The exact value of magnitude bits. -/
def value (bits : Nat) : ℚ :=
  units bits / unitsPerOne

/-- The exact value of a decimal. -/
def Decimal.value (decimal : Decimal) : ℚ :=
  decimal.digits * 10 ^ decimal.exponent

theorem unitsPerOne_cast_pos : (0 : ℚ) < unitsPerOne :=
  Nat.cast_pos.mpr unitsPerOne_pos

/-- A power of ten, as a fraction of whole numbers. -/
theorem ten_zpow (exponent : Int) :
    (10 : ℚ) ^ exponent = (10 ^ exponent.toNat : Nat) / (10 ^ (-exponent).toNat : Nat) := by
  rcases Int.le_total 0 exponent with whole | negative
  · obtain ⟨count, rfl⟩ := Int.eq_ofNat_of_zero_le whole
    simp
  · obtain ⟨count, rfl⟩ := Int.exists_eq_neg_ofNat negative
    simp

/-- The step between decimals of so many digits, beside the first digit. -/
theorem ten_zpow_steps (exponent : Int) {count : Nat} (positive : 0 < count) :
    (10 : ℚ) ^ (exponent - 1) = (10 ^ (count - 1) : Nat) * 10 ^ (exponent - count) := by
  rw [Nat.cast_pow, Nat.cast_ofNat, ← zpow_natCast, ← zpow_add₀ (by norm_num),
    Nat.cast_pred positive, add_comm, sub_add_sub_cancel]

theorem dist_cast (first second : Nat) :
    (Nat.dist first second : ℚ) = |(first : ℚ) - second| := by
  rcases Nat.le_total first second with less | more
  · rw [Nat.dist_eq_sub_of_le less, Nat.cast_sub less, abs_sub_comm,
      abs_of_nonneg (sub_nonneg.mpr (Nat.cast_le.mpr less))]
  · rw [Nat.dist_eq_sub_of_le_right more, Nat.cast_sub more,
      abs_of_nonneg (sub_nonneg.mpr (Nat.cast_le.mpr more))]

/-- What is found first in a range is found at the least index. -/
theorem findSome?_range {α : Type} {find : Nat → Option α} {count : Nat} {found : α}
    (first : (List.range count).findSome? find = some found) :
    ∃ index, find index = some found ∧ ∀ before < index, find before = none := by
  induction count with
  | zero => cases first
  | succ count inductionHypothesis =>
      rw [List.range_succ, List.findSome?_append] at first
      cases earlier : (List.range count).findSome? find with
      | some other =>
          rw [earlier] at first
          exact inductionHypothesis (earlier.trans first)
      | none =>
          rw [earlier, Option.none_or, List.findSome?_singleton] at first
          refine ⟨count, first, fun before less => ?_⟩
          exact List.findSome?_eq_none_iff.mp earlier before (List.mem_range.mpr less)

namespace Decimal

theorem value_eq_div (decimal : Decimal) :
    decimal.value = (decimal.digits * 10 ^ decimal.exponent.toNat : Nat) /
      (10 ^ (-decimal.exponent).toNat : Nat) := by
  unfold value
  rw [ten_zpow, Nat.cast_mul, mul_div_assoc]

/-- A larger decimal does not read as a smaller magnitude. -/
theorem magnitudeBits_mono {first second : Decimal} (ordered : first.value ≤ second.value) :
    first.magnitudeBits ≤ second.magnitudeBits := by
  have positive (exponent : Int) : 0 < 10 ^ exponent.toNat := Nat.pow_pos (by omega)
  refine nearestBits_mono (positive _) (positive _) ?_
  rw [value_eq_div, value_eq_div, div_le_div_iff₀ (Nat.cast_pos.mpr (positive _))
    (Nat.cast_pos.mpr (positive _))] at ordered
  exact_mod_cast ordered

theorem value_fives (count places : Nat) :
    (⟨count * 5 ^ places, -(places : Int)⟩ : Decimal).value = (count : ℚ) / (2 ^ places : Nat) := by
  have ten : (10 : ℚ) ^ places = 5 ^ places * 2 ^ places := by rw [← mul_pow]; norm_num
  unfold value
  dsimp only
  rw [zpow_neg, zpow_natCast, ten]
  push_cast
  field_simp

theorem value_exact (bits : Nat) : (exact bits).value = Number.value bits := by
  unfold exact Number.value unitsPerOne
  exact value_fives (units bits) 1074

/-! ### Neighbours -/

/-- The lower neighbour has the largest digits that do not exceed the magnitude. -/
theorem le_lower_iff (bits count : Nat) (exponent : Int) :
    count ≤ (neighbours bits exponent).1.digits ↔
      (count : ℚ) * 10 ^ exponent ≤ Number.value bits := by
  have up : 0 < 10 ^ exponent.toNat := Nat.pow_pos (by omega)
  have down : 0 < 10 ^ (-exponent).toNat := Nat.pow_pos (by omega)
  show count ≤ units bits * 10 ^ (-exponent).toNat / (unitsPerOne * 10 ^ exponent.toNat) ↔ _
  rw [Nat.le_div_iff_mul_le (Nat.mul_pos unitsPerOne_pos up), ten_zpow, ← mul_div_assoc,
    Number.value, div_le_div_iff₀ (Nat.cast_pos.mpr down) unitsPerOne_cast_pos]
  rw [← Nat.cast_mul, ← Nat.cast_mul, ← Nat.cast_mul, Nat.cast_le]
  rw [Nat.mul_comm unitsPerOne, Nat.mul_assoc]

theorem lower_value (bits : Nat) (exponent : Int) :
    (neighbours bits exponent).1.value =
      ((neighbours bits exponent).1.digits : ℚ) * 10 ^ exponent := rfl

theorem upper_value (bits : Nat) (exponent : Int) :
    (neighbours bits exponent).2.1.value =
      (((neighbours bits exponent).1.digits + 1 : Nat) : ℚ) * 10 ^ exponent := rfl

theorem lower_le (bits : Nat) (exponent : Int) :
    (neighbours bits exponent).1.value ≤ Number.value bits :=
  (le_lower_iff bits _ exponent).mp (Nat.le_refl _)

theorem lt_upper (bits : Nat) (exponent : Int) :
    Number.value bits < (neighbours bits exponent).2.1.value := by
  have beyond := (le_lower_iff bits ((neighbours bits exponent).1.digits + 1) exponent).not.mp
    (Nat.not_succ_le_self _)
  exact not_le.mp beyond

theorem upper_eq_lower_add (bits : Nat) (exponent : Int) :
    (neighbours bits exponent).2.1.value =
      (neighbours bits exponent).1.value + 10 ^ exponent := by
  rw [lower_value, upper_value, Nat.cast_succ, add_mul, one_mul]

/-! ### Scale -/

theorem digitChars_length_le_iff {digits count : Nat} (positive : 0 < count) :
    (digitChars digits).length ≤ count ↔ digits < 10 ^ count :=
  Nat.length_toDigits_le_iff (by omega) positive

theorem digitChars_length_pos (digits : Nat) : 0 < (digitChars digits).length :=
  Nat.length_toDigits_pos

theorem lt_pow_digitChars (digits : Nat) : digits < 10 ^ (digitChars digits).length :=
  (digitChars_length_le_iff (digitChars_length_pos digits)).mp (Nat.le_refl _)

/-- The first digit of a number other than zero is not zero. -/
theorem pow_le_of_digitChars {digits : Nat} (some : digits ≠ 0) :
    10 ^ ((digitChars digits).length - 1) ≤ digits := by
  by_contra less
  have length := digitChars_length_pos digits
  rcases Nat.eq_zero_or_pos ((digitChars digits).length - 1) with one | more
  · rw [one] at less
    omega
  · have shorter := (digitChars_length_le_iff more).mpr (Nat.lt_of_not_le less)
    omega

/-- From one on the scale counts the digits before the point. -/
theorem scale_whole {bits : Nat} (whole : unitsPerOne ≤ units bits) :
    (10 : ℚ) ^ (scale bits - 1) ≤ Number.value bits ∧ Number.value bits < 10 ^ scale bits := by
  have part : units bits / unitsPerOne ≠ 0 := Nat.ne_of_gt (Nat.div_pos whole unitsPerOne_pos)
  have least := pow_le_of_digitChars part
  have most := lt_pow_digitChars (units bits / unitsPerOne)
  have length := digitChars_length_pos (units bits / unitsPerOne)
  unfold scale Number.value
  dsimp only
  rw [if_pos whole]
  generalize (digitChars (units bits / unitsPerOne)).length = count at least most length ⊢
  rw [Nat.le_div_iff_mul_le unitsPerOne_pos] at least
  rw [Nat.div_lt_iff_lt_mul unitsPerOne_pos] at most
  rw [le_div_iff₀ unitsPerOne_cast_pos, div_lt_iff₀ unitsPerOne_cast_pos,
    show (count : Int) - 1 = (count - 1 : Nat) by omega, zpow_natCast, zpow_natCast]
  exact ⟨by exact_mod_cast least, by exact_mod_cast most⟩

/-- Below one it counts the zeros behind the point, one fewer than the inverse has digits. -/
theorem scale_fraction {bits : Nat} (some : units bits ≠ 0) (fraction : units bits < unitsPerOne) :
    (10 : ℚ) ^ (scale bits - 1) ≤ Number.value bits ∧ Number.value bits < 10 ^ scale bits := by
  have positive : 0 < units bits := Nat.pos_of_ne_zero some
  have part : (unitsPerOne - 1) / units bits ≠ 0 := Nat.ne_of_gt (Nat.div_pos (by omega) positive)
  have least := pow_le_of_digitChars part
  have most := lt_pow_digitChars ((unitsPerOne - 1) / units bits)
  have length := digitChars_length_pos ((unitsPerOne - 1) / units bits)
  unfold scale Number.value
  dsimp only
  rw [if_neg (Nat.not_le.mpr fraction)]
  generalize (digitChars ((unitsPerOne - 1) / units bits)).length = count at least most length ⊢
  rw [Nat.le_div_iff_mul_le positive] at least
  rw [Nat.div_lt_iff_lt_mul positive] at most
  have lower : unitsPerOne ≤ units bits * 10 ^ count := by
    rw [Nat.mul_comm]
    omega
  have upper : units bits * 10 ^ (count - 1) < unitsPerOne := by
    rw [Nat.mul_comm]
    omega
  have ten (places : Nat) : (0 : ℚ) < 10 ^ places := by positivity
  rw [show (1 : Int) - count - 1 = -(count : Nat) by omega,
    show (1 : Int) - count = -((count - 1 : Nat) : Int) by omega, zpow_neg, zpow_neg,
    zpow_natCast, zpow_natCast, inv_eq_one_div, inv_eq_one_div,
    div_le_div_iff₀ (ten _) unitsPerOne_cast_pos, div_lt_div_iff₀ unitsPerOne_cast_pos (ten _),
    one_mul]
  exact ⟨by exact_mod_cast lower, by exact_mod_cast upper⟩

/-- The scale is the power of ten above a magnitude. -/
theorem scale_spec {bits : Nat} (some : units bits ≠ 0) :
    (10 : ℚ) ^ (scale bits - 1) ≤ Number.value bits ∧ Number.value bits < 10 ^ scale bits :=
  (Nat.lt_or_ge (units bits) unitsPerOne).elim (scale_fraction some) scale_whole

/-! ### Fewer digits -/

section Outside

variable {bits count : Nat} {decimal : Decimal}

/-- A decimal that is finer than the neighbours does not reach the first digit of the magnitude. -/
theorem le_lower_of_fine (some : units bits ≠ 0) (positive : 0 < count)
    (short : decimal.digits < 10 ^ count) (fine : decimal.exponent < scale bits - count) :
    decimal.value ≤ (neighbours bits (scale bits - count)).1.value := by
  have ten (exponent : Int) : (0 : ℚ) < 10 ^ exponent := by positivity
  have first := ten_zpow_steps (scale bits) positive
  have most : (decimal.digits : ℚ) < 10 ^ (count : Int) := by
    rw [zpow_natCast]
    exact_mod_cast short
  have reached : 10 ^ (count - 1) ≤ (neighbours bits (scale bits - count)).1.digits := by
    rw [le_lower_iff, ← first]
    exact (scale_spec some).1
  calc decimal.value
      ≤ 10 ^ (count : Int) * 10 ^ decimal.exponent :=
        le_of_lt (mul_lt_mul_of_pos_right most (ten _))
    _ = 10 ^ (count + decimal.exponent) := (zpow_add₀ (by norm_num) _ _).symm
    _ ≤ 10 ^ (scale bits - 1) := zpow_le_zpow_right₀ (by norm_num) (by omega)
    _ = (10 ^ (count - 1) : Nat) * 10 ^ (scale bits - count : Int) := first
    _ ≤ (neighbours bits (scale bits - count)).1.value := by
        rw [lower_value]
        exact mul_le_mul_of_nonneg_right (Nat.cast_le.mpr reached) (le_of_lt (ten _))

/-- A decimal that is not finer than the neighbours is a whole number of steps between them. -/
theorem outside_of_coarse (coarse : scale bits - count ≤ decimal.exponent) :
    decimal.value ≤ (neighbours bits (scale bits - count)).1.value ∨
      (neighbours bits (scale bits - count)).2.1.value ≤ decimal.value := by
  obtain ⟨more, same⟩ := Int.le.dest coarse
  have steps : decimal.value =
      (decimal.digits * 10 ^ more : Nat) * 10 ^ (scale bits - count : Int) := by
    unfold value
    rw [← same, zpow_add₀ (by norm_num), zpow_natCast]
    push_cast
    ring
  have step : (0 : ℚ) ≤ 10 ^ (scale bits - count) := by positivity
  rw [steps, lower_value, upper_value]
  rcases Nat.lt_or_ge (decimal.digits * 10 ^ more)
    ((neighbours bits (scale bits - count)).1.digits + 1) with within | beyond
  · exact .inl (mul_le_mul_of_nonneg_right (Nat.cast_le.mpr (Nat.le_of_lt_succ within)) step)
  · exact .inr (mul_le_mul_of_nonneg_right (Nat.cast_le.mpr beyond) step)

/-- A decimal of at most so many digits is not between the neighbours with as many. -/
theorem outside_neighbours (some : units bits ≠ 0) (positive : 0 < count)
    (short : decimal.digits < 10 ^ count) :
    decimal.value ≤ (neighbours bits (scale bits - count)).1.value ∨
      (neighbours bits (scale bits - count)).2.1.value ≤ decimal.value :=
  (Int.lt_or_le decimal.exponent (scale bits - count)).elim
    (.inl ∘ le_lower_of_fine some positive short) outside_of_coarse

end Outside

/-- One of two neighbours is taken if one reads back. -/
theorem nearer?_isSome (tie : TieRule) (lower upper : Decimal) (nearness : Ordering)
    (lowerReads upperReads : Bool) :
    (nearer? tie lower upper nearness lowerReads upperReads).isSome =
      (lowerReads || upperReads) := by
  unfold nearer?
  cases lowerReads <;> cases upperReads <;> cases nearness <;> cases tie <;> rfl

theorem withDigits?_isSome {tie : TieRule} {bits count : Nat} :
    (withDigits? tie bits count).isSome ↔
      (neighbours bits (scale bits - count)).1.magnitudeBits = bits ∨
        (neighbours bits (scale bits - count)).2.1.magnitudeBits = bits := by
  unfold withDigits?
  dsimp only
  rw [nearer?_isSome, Bool.or_eq_true, beq_iff_eq, beq_iff_eq]

/-- If some decimal of at most so many digits reads back, a neighbour with as many does, for
what lies between a magnitude and a decimal that reads as it reads as it too. -/
theorem withDigits?_of_reads (tie : TieRule) {bits count : Nat} (finite : bits < infinityBits)
    (some : units bits ≠ 0) (positive : 0 < count) {decimal : Decimal}
    (short : decimal.digits < 10 ^ count) (reads : decimal.magnitudeBits = bits) :
    (withDigits? tie bits count).isSome := by
  have itself := magnitudeBits_exact finite
  rw [withDigits?_isSome]
  rcases outside_neighbours some positive short with below | above
  · refine .inl (Nat.le_antisymm ?_ ?_)
    · exact (magnitudeBits_mono ((lower_le bits _).trans_eq (value_exact bits).symm)).trans_eq
        itself
    · exact reads.symm.trans_le (magnitudeBits_mono below)
  · refine .inr (Nat.le_antisymm ?_ ?_)
    · exact (magnitudeBits_mono above).trans_eq reads
    · exact itself.symm.trans_le
        (magnitudeBits_mono ((value_exact bits).trans_le (le_of_lt (lt_upper bits _))))

/-! ### Enough digits -/

/-- The distance of a magnitude from a decimal. -/
theorem distance_eq (decimal : Decimal) (bits : Nat) :
    (distance (decimal.digits * 10 ^ decimal.exponent.toNat) (10 ^ (-decimal.exponent).toNat)
        bits : ℚ) =
      |decimal.value - Number.value bits| *
        (unitsPerOne * (10 ^ (-decimal.exponent).toNat : Nat)) := by
  have down : (0 : ℚ) < (10 ^ (-decimal.exponent).toNat : Nat) :=
    Nat.cast_pos.mpr (Nat.pow_pos (by omega))
  have scale := mul_pos unitsPerOne_cast_pos down
  have difference (numerator divisor count whole : ℚ) (left : 0 < divisor) (right : 0 < whole) :
      count * divisor - numerator * whole =
        -((numerator / divisor - count / whole) * (whole * divisor)) := by
    field_simp
    ring
  rw [distance, dist_cast, value_eq_div, Number.value, Nat.cast_mul (units bits),
    Nat.cast_mul _ unitsPerOne, difference _ _ _ _ down unitsPerOne_cast_pos, abs_neg, abs_mul,
    abs_of_pos scale]

/-- No magnitude is nearer to a decimal than what it reads as. -/
theorem magnitudeBits_nearest (decimal : Decimal) {other : Nat} (bounded : other ≤ infinityBits) :
    |decimal.value - Number.value decimal.magnitudeBits| ≤ |decimal.value - Number.value other| := by
  have down : 0 < 10 ^ (-decimal.exponent).toNat := Nat.pow_pos (by omega)
  have scale := mul_pos unitsPerOne_cast_pos (Nat.cast_pos.mpr down)
  have least := (nearestBits_nearest (decimal.digits * 10 ^ decimal.exponent.toNat) down).least
    other bounded
  rw [← Nat.cast_le (α := ℚ), distance_eq, distance_eq] at least
  exact le_of_mul_le_mul_right least scale

/-- A decimal that is nearer to a magnitude than half of any step there reads as it. -/
theorem magnitudeBits_of_near {bits : Nat} (bounded : bits ≤ infinityBits) {decimal : Decimal}
    (near : 2 ^ 54 * |decimal.value - Number.value bits| < Number.value bits) :
    decimal.magnitudeBits = bits := by
  by_contra different
  have gap : Number.value bits ≤
      2 ^ 53 * |Number.value decimal.magnitudeBits - Number.value bits| := by
    have counted : (units bits : ℚ) ≤
        2 ^ 53 * |(units decimal.magnitudeBits : ℚ) - units bits| := by
      rw [← dist_cast]
      exact_mod_cast units_le_gap different
    unfold Number.value
    rw [← sub_div, abs_div, abs_of_pos unitsPerOne_cast_pos, ← mul_div_assoc]
    exact (div_le_div_iff_of_pos_right unitsPerOne_cast_pos).mpr counted
  have least := magnitudeBits_nearest decimal bounded
  have sides := abs_sub_le (Number.value decimal.magnitudeBits) decimal.value (Number.value bits)
  rw [abs_sub_comm _ decimal.value] at sides
  linarith

/-- Seventeen digits are enough: the nearer of the neighbours with as many reads back. -/
theorem withDigits?_seventeen (tie : TieRule) {bits : Nat} (finite : bits < infinityBits)
    (some : units bits ≠ 0) : (withDigits? tie bits 17).isSome := by
  have step : (0 : ℚ) < 10 ^ (scale bits - (17 : Nat)) := by positivity
  have least : (10 : ℚ) ^ 16 * 10 ^ (scale bits - (17 : Nat)) ≤ Number.value bits := by
    have first := (scale_spec some).1
    rw [@ten_zpow_steps _ 17 (by omega)] at first
    exact_mod_cast first
  have lower := lower_le bits (scale bits - (17 : Nat))
  have upper := lt_upper bits (scale bits - (17 : Nat))
  have between := upper_eq_lower_add bits (scale bits - (17 : Nat))
  rw [withDigits?_isSome]
  rcases le_total (2 * (Number.value bits - (neighbours bits (scale bits - (17 : Nat))).1.value))
    (10 ^ (scale bits - (17 : Nat))) with near | far
  · refine .inl (magnitudeBits_of_near (Nat.le_of_lt finite) ?_)
    rw [abs_sub_comm, abs_of_nonneg (sub_nonneg.mpr lower)]
    linarith
  · refine .inr (magnitudeBits_of_near (Nat.le_of_lt finite) ?_)
    rw [abs_of_pos (sub_pos.mpr upper)]
    linarith

/-! ### Fewest digits -/

/-- A decimal reads as a magnitude, and no decimal with fewer digits does. -/
structure IsShortest (bits : Nat) (decimal : Decimal) : Prop where
  reads : decimal.magnitudeBits = bits
  fewest : ∀ other : Decimal, other.magnitudeBits = bits →
    (digitChars decimal.digits).length ≤ (digitChars other.digits).length

theorem stripZeros_digits_le (decimal : Decimal) : decimal.stripZeros.digits ≤ decimal.digits := by
  fun_induction stripZeros decimal with
  | case1 decimal trailing inductionHypothesis =>
      exact Nat.le_trans inductionHypothesis (Nat.div_le_self _ _)
  | case2 => exact Nat.le_refl _

/-- A power of ten has a zero to drop, so it does not need another digit. -/
theorem stripZeros_digits_lt {decimal : Decimal} {count : Nat} (positive : 0 < count)
    (bounded : decimal.digits ≤ 10 ^ count) : decimal.stripZeros.digits < 10 ^ count := by
  rcases Nat.lt_or_eq_of_le bounded with less | power
  · exact Nat.lt_of_le_of_lt (stripZeros_digits_le decimal) less
  · obtain ⟨before, rfl⟩ : ∃ before, count = before + 1 := ⟨count - 1, by omega⟩
    have some : 0 < 10 ^ before := Nat.pow_pos (by omega)
    rw [Nat.pow_succ'] at power ⊢
    unfold stripZeros
    rw [if_pos ⟨by omega, by omega⟩]
    have stripped := stripZeros_digits_le ⟨decimal.digits / 10, decimal.exponent + 1⟩
    dsimp only at stripped
    omega

/-- The decimal that is found has no more digits than asked for, or one more and zeros. -/
theorem digits_of_withDigits? {tie : TieRule} {bits count : Nat} (some : units bits ≠ 0)
    {decimal : Decimal} (found : withDigits? tie bits count = .some decimal) :
    decimal.digits ≤ 10 ^ count := by
  have bounded : (neighbours bits (scale bits - count)).1.digits < 10 ^ count := by
    rw [← not_le, le_lower_iff, not_le]
    refine (scale_spec some).2.trans_eq ?_
    rw [Nat.cast_pow, Nat.cast_ofNat, ← zpow_natCast, ← zpow_add₀ (by norm_num), add_sub_cancel]
  unfold withDigits? at found
  rcases of_nearer? found with ⟨rfl, _⟩ | ⟨rfl, _⟩
  · exact Nat.le_of_lt bounded
  · exact bounded

/-- `Decimal.shortest` is shortest. -/
theorem shortest_isShortest (tie : TieRule) {bits : Nat} (finite : bits < infinityBits)
    (some : units bits ≠ 0) : IsShortest bits (shortest tie bits) := by
  refine ⟨magnitudeBits_shortest tie finite, fun other reads => ?_⟩
  unfold shortest
  cases search : (List.range 17).findSome? fun count => withDigits? tie bits (count + 1) with
  | none =>
      have none := List.findSome?_eq_none_iff.mp search 16 (List.mem_range.mpr (by omega))
      have enough := withDigits?_seventeen tie finite some
      rw [none] at enough
      cases enough
  | some decimal =>
      obtain ⟨index, found, least⟩ := findSome?_range search
      have short := stripZeros_digits_lt (Nat.succ_pos index) (digits_of_withDigits? some found)
      rw [Option.getD_some]
      refine Nat.le_trans ((digitChars_length_le_iff (Nat.succ_pos index)).mpr short) ?_
      by_contra fewer
      have length := digitChars_length_pos other.digits
      have before := least ((digitChars other.digits).length - 1) (by omega)
      have there := withDigits?_of_reads tie finite some length
        (lt_pow_digitChars other.digits) reads
      rw [show (digitChars other.digits).length - 1 + 1 = (digitChars other.digits).length by omega]
        at before
      rw [before] at there
      cases there

end Decimal

end Lox.Number
