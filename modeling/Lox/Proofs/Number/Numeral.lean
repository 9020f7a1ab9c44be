import Lox.Number.Text
import Lox.Proofs.Number.Shortest

/-!
Contract: printed numbers are numerals of the source.

Owns:
- `Spells`, which says that digits, or digits around a point, read as a magnitude;
- `Shown`, which says which digits are written for a magnitude: all those of a whole number, and of
  any other the fewest that read back;
- that what `Layout.display` writes for a finite magnitude is shown so and spells it.

Does not own: signs, and what is not finite.
-/

namespace Lox.Number

-- Powers are the same whatever else is imported.
attribute [local instance (2000)] instPowNat

/-- A text is digits, with a point and more digits behind them or not, that read as a
magnitude. -/
structure Spells (whole fraction text : List Char) (bits : Nat) : Prop where
  nonempty : whole ≠ []
  wholeDigits : ∀ c ∈ whole, c.isDigit
  fractionDigits : ∀ c ∈ fraction, c.isDigit
  text : text = if fraction.isEmpty then whole else whole ++ '.' :: fraction
  reads : (Decimal.ofDigitChars whole fraction).magnitudeBits = bits

theorem digitChars_ne_nil (value : Nat) : digitChars value ≠ [] :=
  Nat.toDigits_ne_nil

theorem isDigit_of_mem_digitChars {value : Nat} {c : Char} (member : c ∈ digitChars value) :
    c.isDigit :=
  Nat.isDigit_of_mem_toDigits (by omega) (by omega) member

theorem isDigit_of_mem_zeros {count : Nat} {c : Char} (member : c ∈ List.replicate count '0') :
    c.isDigit := by
  rw [(List.mem_replicate.mp member).2]
  rfl

@[simp] theorem ofDigitChars_digitChars (value : Nat) :
    Nat.ofDigitChars 10 (digitChars value) 0 = value :=
  Nat.ofDigitChars_ten_toDigits

/-! ### Digits around the point -/

namespace Decimal

variable (digits : Nat) {places : Nat}

/-- Zeros behind the digits stand for a power of ten. -/
theorem magnitudeBits_zeros (count : Nat) :
    magnitudeBits ⟨10 ^ count * digits, 0⟩ = magnitudeBits ⟨digits, count⟩ := by
  unfold magnitudeBits
  have none : (-(count : Int)).toNat = 0 := Int.toNat_neg_natCast count
  simp only [Int.toNat_natCast, none, Int.toNat_zero, Int.neg_zero, Nat.pow_zero, Nat.mul_one]
  rw [Nat.mul_comm]

theorem spells_zeros_behind (count : Nat) :
    Spells (digitChars digits ++ List.replicate count '0') []
      (digitChars digits ++ List.replicate count '0') (magnitudeBits ⟨digits, count⟩) where
  nonempty := by simp [digitChars_ne_nil]
  wholeDigits c member :=
    (List.mem_append.mp member).elim isDigit_of_mem_digitChars isDigit_of_mem_zeros
  fractionDigits := nofun
  text := rfl
  reads := by
    unfold ofDigitChars
    rw [List.append_nil, Nat.ofDigitChars_append, Nat.ofDigitChars_replicate_zero,
      ofDigitChars_digitChars]
    exact magnitudeBits_zeros digits count

theorem spells_point_inside (some : 0 < places) (inside : places < (digitChars digits).length) :
    Spells ((digitChars digits).take ((digitChars digits).length - places))
      ((digitChars digits).drop ((digitChars digits).length - places))
      ((digitChars digits).take ((digitChars digits).length - places) ++
        '.' :: (digitChars digits).drop ((digitChars digits).length - places))
      (magnitudeBits ⟨digits, -(places : Int)⟩) where
  nonempty none := by
    have length := congrArg List.length none
    simp only [List.length_take, List.length_nil] at length
    omega
  wholeDigits c member := isDigit_of_mem_digitChars (List.mem_of_mem_take member)
  fractionDigits c member := isDigit_of_mem_digitChars (List.mem_of_mem_drop member)
  text := by
    refine (if_neg fun none => ?_).symm
    have length := congrArg List.length (List.isEmpty_iff.mp none)
    simp only [List.length_drop, List.length_nil] at length
    omega
  reads := by
    have count : (digitChars digits).length - ((digitChars digits).length - places) = places := by
      omega
    unfold ofDigitChars
    rw [List.take_append_drop, ofDigitChars_digitChars, List.length_drop, count]

theorem spells_zeros_before (outside : (digitChars digits).length ≤ places) :
    Spells ['0'] (List.replicate (places - (digitChars digits).length) '0' ++ digitChars digits)
      ('0' :: '.' :: (List.replicate (places - (digitChars digits).length) '0' ++
        digitChars digits))
      (magnitudeBits ⟨digits, -(places : Int)⟩) where
  nonempty := nofun
  wholeDigits c member := @isDigit_of_mem_zeros 1 c member
  fractionDigits c member :=
    (List.mem_append.mp member).elim isDigit_of_mem_zeros isDigit_of_mem_digitChars
  text := (if_neg (by simp [digitChars_ne_nil])).symm
  reads := by
    have value : Nat.ofDigitChars 10
        (['0'] ++ (List.replicate (places - (digitChars digits).length) '0' ++
          digitChars digits)) 0 = digits := by
      rw [List.singleton_append, Nat.ofDigitChars_cons, Nat.ofDigitChars_append,
        Nat.ofDigitChars_replicate_zero]
      simp
    have length : (List.replicate (places - (digitChars digits).length) '0' ++
        digitChars digits).length = places := by
      rw [List.length_append, List.length_replicate]
      omega
    unfold ofDigitChars
    rw [value, length]

/-- Digits around the point spell the decimal. By cases as in `positionalText`. -/
theorem positionalText_spells (decimal : Decimal) :
    ∃ whole fraction,
      Spells whole fraction (decimal.positionalText false) decimal.magnitudeBits := by
  obtain ⟨digits, exponent⟩ := decimal
  unfold positionalText
  dsimp only
  rcases Int.lt_or_le exponent 0 with negative | whole
  · obtain ⟨places, rfl⟩ := Int.eq_negSucc_of_lt_zero negative
    rw [if_neg (by omega)]
    by_cases inside : places + 1 < (digitChars digits).length
    · have count : (-Int.negSucc places).toNat = places + 1 := rfl
      rw [count, if_pos inside]
      exact ⟨_, _, spells_point_inside digits (Nat.succ_pos places) inside⟩
    · have count : (-Int.negSucc places).toNat = places + 1 := rfl
      rw [count, if_neg inside]
      exact ⟨_, _, spells_zeros_before digits (Nat.le_of_not_lt inside)⟩
  · obtain ⟨count, rfl⟩ := Int.eq_ofNat_of_zero_le whole
    rw [if_pos whole]
    have last : digitChars digits ++ List.replicate count '0' ++ [] = _ := List.append_nil _
    exact ⟨_, _, last ▸ spells_zeros_behind digits count⟩

end Decimal

/-! ### Printed numbers -/

/-- The text of a magnitude without an exponent: all the digits of a whole number, and of any other
the fewest digits that read back, around the point. -/
inductive Shown (bits : Nat) : List Char → Prop where
  | whole {value : Nat} (exactly : value * unitsPerOne = units bits) : Shown bits (digitChars value)
  | fraction {decimal : Decimal} (broken : units bits % unitsPerOne ≠ 0)
      (shortest : decimal.IsShortest bits) : Shown bits (decimal.positionalText false)

theorem magnitudeText_shown {bits : Nat} (finite : bits < infinityBits) :
    Shown bits (Layout.display.magnitudeText bits) := by
  unfold Layout.magnitudeText
  by_cases whole : units bits % unitsPerOne = 0
  · have full : (isWhole bits && Layout.display.inFull (wholePart bits)) = true :=
      Bool.and_eq_true_iff.mpr ⟨beq_iff_eq.mpr whole, rfl⟩
    have point : Layout.display.fullPoint = false := rfl
    rw [if_pos full, point, if_neg Bool.false_ne_true, List.append_nil]
    exact .whole (Nat.div_mul_cancel (Nat.dvd_of_mod_eq_zero whole))
  · have broken : (isWhole bits && Layout.display.inFull (wholePart bits)) = false :=
      Bool.and_eq_false_imp.mpr fun same => absurd (eq_of_beq same) whole
    have positional (exponent : Int) : Layout.display.positional exponent = true := rfl
    have some : units bits ≠ 0 := fun zero => whole (by rw [zero, Nat.zero_mod])
    rw [broken, if_neg Bool.false_ne_true]
    dsimp only
    rw [positional, if_pos rfl]
    exact .fraction whole (Decimal.shortest_isShortest _ finite some)

/-- A whole magnitude is the decimal of its value. -/
theorem magnitudeBits_of_whole {bits value : Nat} (finite : bits < infinityBits)
    (exactly : value * unitsPerOne = units bits) : Decimal.magnitudeBits ⟨value, 0⟩ = bits := by
  refine nearestBits_of_exact Nat.one_pos finite ?_
  simpa using exactly

theorem Shown.spells {bits : Nat} {text : List Char} (finite : bits < infinityBits)
    (shown : Shown bits text) : ∃ whole fraction, Spells whole fraction text bits := by
  cases shown with
  | @whole value exactly =>
      have spells := Decimal.spells_zeros_behind value 0
      rw [Int.natCast_zero, magnitudeBits_of_whole finite exactly, List.replicate_zero,
        List.append_nil] at spells
      exact ⟨_, _, spells⟩
  | @fraction decimal _ shortest =>
      obtain ⟨whole, fraction, spells⟩ := decimal.positionalText_spells
      rw [shortest.reads] at spells
      exact ⟨whole, fraction, spells⟩

/-- What is printed for a finite magnitude is a numeral that reads as it. -/
theorem magnitudeText_spells {bits : Nat} (finite : bits < infinityBits) :
    ∃ whole fraction, Spells whole fraction (Layout.display.magnitudeText bits) bits :=
  (magnitudeText_shown finite).spells finite

end Lox.Number
