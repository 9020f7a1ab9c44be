import Mathlib.Data.Nat.Dist
import Mathlib.Order.Monotone.Basic
import Lox.Proofs.Number.Rounding

/-!
Contract: rounding is correct.

Owns:
- that the exact values of magnitudes grow with their bits, in steps that are not small beside
  them;
- `Nearest`, what it is for a magnitude to be the nearest one to a fraction, halves going to even;
- that `nearestBits` is nearest, and grows with the fraction.

Does not own: decimals.
-/

namespace Lox.Number

-- Powers are the same whatever else is imported.
attribute [local instance (2000)] instPowNat

theorem unitsPerOne_pos : 0 < unitsPerOne := by
  rw [unitsPerOne]
  apply Nat.two_pow_pos

/-! ### Values -/

/-- Within a run of magnitudes with one exponent the value grows by the same amount, and the run
reaches up to the first magnitude behind it. -/
theorem units_run {shift significand : Nat} (full : shift = 0 ∨ 2 ^ 52 ≤ significand)
    (bounded : significand ≤ 2 ^ 53) :
    units (shift * 2 ^ 52 + significand) = significand * 2 ^ shift := by
  unfold units
  rcases Nat.lt_or_ge significand (2 ^ 52) with short | long
  · obtain rfl : shift = 0 := by omega
    rw [if_pos (by omega)]
    simp
  · rw [if_neg (by omega)]
    rcases Nat.lt_or_eq_of_le bounded with inside | rfl
    · have exponent : (shift * 2 ^ 52 + significand) / 2 ^ 52 - 1 = shift := by omega
      have fraction : 2 ^ 52 + (shift * 2 ^ 52 + significand) % 2 ^ 52 = significand := by omega
      rw [exponent, fraction]
    · have exponent : (shift * 2 ^ 52 + 2 ^ 53) / 2 ^ 52 - 1 = shift + 1 := by omega
      have fraction : 2 ^ 52 + (shift * 2 ^ 52 + 2 ^ 53) % 2 ^ 52 = 2 ^ 52 := by omega
      rw [exponent, fraction, Nat.pow_succ]
      omega

/-- Every magnitude is in a run, and the next one as well. -/
theorem exists_run (bits : Nat) :
    ∃ shift significand, bits = shift * 2 ^ 52 + significand ∧
      (shift = 0 ∨ 2 ^ 52 ≤ significand) ∧ significand < 2 ^ 53 := by
  rcases Nat.lt_or_ge bits (2 ^ 52) with short | long
  · exact ⟨0, bits, by omega, .inl rfl, by omega⟩
  · exact ⟨bits / 2 ^ 52 - 1, 2 ^ 52 + bits % 2 ^ 52, by omega, .inr (by omega), by omega⟩

theorem units_strictMono : StrictMono units := by
  refine strictMono_nat_of_lt_succ fun bits => ?_
  obtain ⟨shift, significand, rfl, full, bounded⟩ := exists_run bits
  rw [units_run full (Nat.le_of_lt bounded), Nat.add_assoc,
    units_run (full.imp_right (Nat.le_trans · (Nat.le_succ _))) bounded]
  exact Nat.mul_lt_mul_of_pos_right (Nat.lt_succ_self _) (Nat.two_pow_pos shift)

/-- A step between two magnitudes is not small beside them. -/
theorem units_step (bits : Nat) :
    ∃ step, units (bits + 1) = units bits + step ∧ units (bits + 1) ≤ 2 ^ 53 * step := by
  obtain ⟨shift, significand, rfl, full, bounded⟩ := exists_run bits
  have next := units_run (full.imp_right (Nat.le_trans · (Nat.le_succ _))) bounded
  refine ⟨2 ^ shift, ?_, ?_⟩
  · rw [units_run full (Nat.le_of_lt bounded), Nat.add_assoc, next, Nat.succ_mul]
  · rw [Nat.add_assoc, next]
    exact Nat.mul_le_mul_right _ bounded

/-- Magnitudes are far apart, each beside the others. -/
theorem units_le_gap {bits other : Nat} (different : other ≠ bits) :
    units bits ≤ 2 ^ 53 * Nat.dist (units other) (units bits) := by
  rcases Nat.lt_or_gt_of_ne different with less | more
  · obtain ⟨below, rfl⟩ : ∃ below, bits = below + 1 := ⟨bits - 1, by omega⟩
    obtain ⟨step, next, bounded⟩ := units_step below
    have order : units other ≤ units below := units_strictMono.monotone (Nat.le_of_lt_succ less)
    refine Nat.le_trans bounded (Nat.mul_le_mul_left _ ?_)
    unfold Nat.dist
    omega
  · obtain ⟨step, next, bounded⟩ := units_step bits
    have order : units (bits + 1) ≤ units other := units_strictMono.monotone more
    refine Nat.le_trans (Nat.le_trans ?_ bounded) (Nat.mul_le_mul_left _ ?_)
    · omega
    · unfold Nat.dist
      omega

/-! ### What is nearest -/

/-- How far a magnitude is from a fraction, counted in units and divided by the denominator.
Infinity stands for the first value beyond the finite ones. -/
def distance (numerator denominator bits : Nat) : Nat :=
  Nat.dist (units bits * denominator) (numerator * unitsPerOne)

/-- A magnitude is the nearest one to a fraction, and even if there is another such. -/
structure Nearest (numerator denominator bits : Nat) : Prop where
  bounded : bits ≤ infinityBits
  least : ∀ other, other ≤ infinityBits →
    distance numerator denominator bits ≤ distance numerator denominator other
  even : ∀ other, other ≤ infinityBits → other ≠ bits →
    distance numerator denominator bits = distance numerator denominator other → bits % 2 = 0

/-- The quotient or the next number, whichever is nearer. -/
theorem roundHalfEven_cases (numerator denominator : Nat) :
    roundHalfEven numerator denominator = numerator / denominator ∧
        2 * (numerator % denominator) < denominator ∨
      roundHalfEven numerator denominator = numerator / denominator + 1 ∧
        denominator < 2 * (numerator % denominator) ∨
      2 * (numerator % denominator) = denominator ∧
        roundHalfEven numerator denominator % 2 = 0 ∧
        (roundHalfEven numerator denominator = numerator / denominator ∨
          roundHalfEven numerator denominator = numerator / denominator + 1) := by
  unfold roundHalfEven
  dsimp only
  split
  · exact .inl ⟨rfl, by assumption⟩
  · split
    · exact .inr (.inl ⟨rfl, by assumption⟩)
    · refine .inr (.inr ?_)
      omega

/-- The significand of a fraction has 53 bits, or fewer in the first run. -/
theorem significand_bounds (numerator denominator : Nat) :
    let shift := Nat.log2 (numerator / denominator) - 52
    let significand := numerator / (denominator * 2 ^ shift)
    (shift = 0 ∨ 2 ^ 52 ≤ significand) ∧ significand < 2 ^ 53 := by
  intro shift significand
  have value : significand = numerator / denominator / 2 ^ shift :=
    (Nat.div_div_eq_div_mul _ _ _).symm
  have upper : numerator / denominator < 2 ^ (Nat.log2 (numerator / denominator) + 1) :=
    Nat.lt_log2_self
  rw [value, Nat.div_lt_iff_lt_mul (Nat.two_pow_pos shift),
    Nat.le_div_iff_mul_le (Nat.two_pow_pos shift), ← Nat.pow_add, ← Nat.pow_add]
  rcases Nat.lt_or_ge (Nat.log2 (numerator / denominator)) 53 with short | long
  · have none : shift = 0 := by omega
    refine ⟨.inl none, Nat.lt_of_lt_of_le upper (Nat.pow_le_pow_right (by omega) ?_)⟩
    omega
  · have some : numerator / denominator ≠ 0 := fun zero => by
      rw [zero] at long
      exact absurd long (by decide)
    refine ⟨.inr (Nat.le_trans (Nat.pow_le_pow_right (by omega) ?_) (Nat.log2_self_le some)),
      Nat.lt_of_lt_of_le upper (Nat.pow_le_pow_right (by omega) ?_)⟩
    · omega
    · omega

/-- A fraction lies between two magnitudes that follow one another, up to infinity, and rounds to
the nearer one. -/
theorem exists_between (numerator : Nat) {denominator : Nat} (positive : 0 < denominator) :
    ∃ below, units below * denominator ≤ numerator * unitsPerOne ∧
      numerator * unitsPerOne < units (below + 1) * denominator ∧
      ∃ rounded, nearestBits numerator denominator = min infinityBits rounded ∧
        (rounded = below ∧ 2 * (numerator * unitsPerOne) <
            units below * denominator + units (below + 1) * denominator ∨
          rounded = below + 1 ∧ units below * denominator + units (below + 1) * denominator <
            2 * (numerator * unitsPerOne) ∨
          2 * (numerator * unitsPerOne) =
              units below * denominator + units (below + 1) * denominator ∧
            rounded % 2 = 0 ∧ (rounded = below ∨ rounded = below + 1)) := by
  obtain ⟨full, bounded⟩ := significand_bounds (numerator * unitsPerOne) denominator
  have rounds : nearestBits numerator denominator = min infinityBits
      ((Nat.log2 (numerator * unitsPerOne / denominator) - 52) * 2 ^ 52 +
        roundHalfEven (numerator * unitsPerOne) (denominator *
          2 ^ (Nat.log2 (numerator * unitsPerOne / denominator) - 52))) := rfl
  generalize Nat.log2 (numerator * unitsPerOne / denominator) - 52 = shift at full bounded rounds
  generalize numerator * unitsPerOne = scaled at full bounded rounds ⊢
  have step : 0 < denominator * 2 ^ shift := Nat.mul_pos positive (Nat.two_pow_pos shift)
  have split := Nat.div_add_mod scaled (denominator * 2 ^ shift)
  have less := Nat.mod_lt scaled step
  have cases := roundHalfEven_cases scaled (denominator * 2 ^ shift)
  generalize scaled / (denominator * 2 ^ shift) = significand at full bounded split cases
  generalize scaled % (denominator * 2 ^ shift) = remainder at split less cases
  have here : units (shift * 2 ^ 52 + significand) * denominator =
      denominator * 2 ^ shift * significand := by
    rw [units_run full (Nat.le_of_lt bounded), Nat.mul_comm, Nat.mul_comm significand,
      Nat.mul_assoc]
  have next : units (shift * 2 ^ 52 + significand + 1) * denominator =
      denominator * 2 ^ shift * significand + denominator * 2 ^ shift := by
    rw [Nat.add_assoc, units_run (full.imp_right (Nat.le_trans · (Nat.le_succ _))) bounded,
      Nat.mul_comm, Nat.mul_comm (significand + 1), ← Nat.mul_assoc, Nat.mul_succ]
  refine ⟨shift * 2 ^ 52 + significand, ?_, ?_, _, rounds, ?_⟩
  · omega
  · omega
  · omega

/-- A fraction is rounded to the nearest magnitude, a half to the even one. -/
theorem nearestBits_nearest (numerator : Nat) {denominator : Nat} (positive : 0 < denominator) :
    Nearest numerator denominator (nearestBits numerator denominator) := by
  obtain ⟨below, low, high, rounded, rounds, which⟩ := exists_between numerator positive
  have order {first second : Nat} (less : first < second) :
      units first * denominator < units second * denominator :=
    Nat.mul_lt_mul_of_pos_right (units_strictMono less) positive
  -- Other magnitudes are not between the two.
  have outside (other : Nat) : other < below ∧ units other * denominator < units below * denominator ∨
      other = below ∨ other = below + 1 ∨ below + 1 < other ∧
        units (below + 1) * denominator < units other * denominator := by
    rcases Nat.lt_trichotomy other below with less | same | more
    · exact .inl ⟨less, order less⟩
    · exact .inr (.inl same)
    · rcases Nat.eq_or_lt_of_le (Nat.succ_le_of_lt more) with next | further
      · exact .inr (.inr (.inl next.symm))
      · exact .inr (.inr (.inr ⟨further, order further⟩))
  rw [rounds]
  rcases Nat.lt_or_ge infinityBits rounded with beyond | inside
  · rw [Nat.min_eq_left (Nat.le_of_lt beyond)]
    have last : units infinityBits * denominator ≤ units below * denominator :=
      Nat.mul_le_mul_right _ (units_strictMono.monotone (by omega))
    refine ⟨Nat.le_refl _, fun other bounded => ?_, fun other bounded different same => ?_⟩
    · have least : units other * denominator ≤ units infinityBits * denominator :=
        Nat.mul_le_mul_right _ (units_strictMono.monotone bounded)
      unfold distance Nat.dist
      omega
    · have least := order (Nat.lt_of_le_of_ne bounded different)
      unfold distance Nat.dist at same
      omega
  · rw [Nat.min_eq_right inside]
    refine ⟨inside, fun other bounded => ?_, fun other bounded different same => ?_⟩
    · unfold distance Nat.dist
      rcases outside other with ⟨_, less⟩ | rfl | rfl | ⟨_, more⟩ <;>
        rcases which with ⟨rfl, _⟩ | ⟨rfl, _⟩ | ⟨_, _, rfl | rfl⟩ <;> omega
    · unfold distance Nat.dist at same
      rcases outside other with ⟨_, less⟩ | rfl | rfl | ⟨_, more⟩ <;>
        rcases which with ⟨rfl, _⟩ | ⟨rfl, _⟩ | ⟨_, _, rfl | rfl⟩ <;> omega

/-- A larger fraction does not round to a smaller magnitude. -/
theorem nearestBits_mono {numerator denominator other divisor : Nat} (positive : 0 < denominator)
    (divides : 0 < divisor) (ordered : numerator * divisor ≤ other * denominator) :
    nearestBits numerator denominator ≤ nearestBits other divisor := by
  have first := nearestBits_nearest (divisor * numerator) (Nat.mul_pos divides positive)
  have second := nearestBits_nearest (denominator * other) (Nat.mul_pos positive divides)
  rw [nearestBits_scale divides] at first
  rw [nearestBits_scale positive] at second
  rw [Nat.mul_comm denominator divisor] at second
  rcases Nat.lt_or_ge (nearestBits other divisor) (nearestBits numerator denominator) with
    reversed | fine
  · have larger := Nat.mul_lt_mul_of_pos_right (units_strictMono reversed)
      (Nat.mul_pos divides positive)
    have near := first.least _ second.bounded
    have far := second.least _ first.bounded
    have scaled : divisor * numerator * unitsPerOne ≤ denominator * other * unitsPerOne := by
      refine Nat.mul_le_mul_right _ ?_
      rwa [Nat.mul_comm divisor, Nat.mul_comm denominator]
    -- Both fractions are half way between the two magnitudes, so they are one.
    have same : divisor * numerator * unitsPerOne = denominator * other * unitsPerOne := by
      unfold distance Nat.dist at near far
      omega
    have equal := Nat.eq_of_mul_eq_mul_right unitsPerOne_pos same
    refine Nat.le_of_eq ?_
    calc nearestBits numerator denominator
        = nearestBits (divisor * numerator) (divisor * denominator) :=
          (nearestBits_scale divides _ _).symm
      _ = nearestBits (denominator * other) (denominator * divisor) := by
          rw [equal, Nat.mul_comm denominator divisor]
      _ = nearestBits other divisor := nearestBits_scale positive _ _
  · exact fine

end Lox.Number
