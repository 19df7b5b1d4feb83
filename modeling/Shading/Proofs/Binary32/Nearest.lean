import Shading.Proofs.Binary32.Rounding

/-! Reading a decimal finds the nearest number, of two as near the one with the even encoding. -/

namespace Shading

namespace Binary32

variable {x y : Binary32} {d : Decimal} {v : ℚ}

/-- The number that an encoding stands for. -/
def value (x : Binary32) : ℚ :=
  (if x.isNegative then -1 else 1) * (x.units / 2 ^ 149)

/-- The encoding is that of the number nearest to a value; of two as near it is the even one. -/
structure IsNearest (x : Binary32) (v : ℚ) : Prop where
  finite : x.isFinite = true
  unsigned : x.isNegative = false
  nearest : ∀ y : Binary32, y.isFinite = true → |v - x.value| ≤ |v - y.value|
  even : ∀ y : Binary32, y.isFinite = true → |v - x.value| = |v - y.value| →
    y.value = x.value ∨ x.bits.toNat % 2 = 0

/-- A number is known by its encoding. -/
theorem eq_of_bits (same : x.bits.toNat = y.bits.toNat) : x = y := by
  -- An encoding is nothing but its bits.
  obtain ⟨bits⟩ := x
  obtain ⟨bits'⟩ := y
  exact congrArg Binary32.mk (UInt32.toNat_inj.mp same)

/-- Without a sign, a number is its size. -/
theorem value_of_unsigned (unsigned : x.isNegative = false) :
    x.value = unitsAt x.magnitude / 2 ^ 149 := by
  -- The bit of the sign is not set, so the value is the size over its unit.
  simp [value, unsigned, units_eq]

/-- With a sign, a number is its size below zero. -/
theorem value_of_negative (negative : x.isNegative = true) :
    x.value = -(unitsAt x.magnitude / 2 ^ 149) := by
  -- The bit of the sign is set, so the size is counted downwards.
  simp [value, negative, units_eq]

/-- The denominator of a decimal is a number to divide by. -/
theorem denominator_pos (d : Decimal) : 0 < d.denominator :=
  -- It is a power of ten.
  Nat.pow_pos (by decide)

/-- A decimal is refused from the middle of the largest number and the next power of two on. -/
theorem ofDecimal?_eq_none_iff :
    ofDecimal? d = none ↔ (2 ^ 128 - 2 ^ 103 : ℚ) ≤ d.numerator / d.denominator := by
  -- What is refused is exactly what would be rounded to infinity or above.
  have limit := nearestMagnitude_lt_infinity_iff d.numerator (denominator_pos d)
  have refused : ofDecimal? d = none ↔ ¬ nearestMagnitude d.numerator d.denominator < infinity := by
    unfold ofDecimal? magnitudeOf
    split <;> simp_all
  rw [refused, limit, not_lt]

/-- No number without sign is nearer to a decimal than the one that it is read as. -/
theorem nearest_of_ofDecimal? (read : ofDecimal? d = some x) (other : Nat) :
    |(d.numerator / d.denominator : ℚ) - x.value| ≤
        |(d.numerator / d.denominator : ℚ) - unitsAt other / 2 ^ 149| ∧
      (|(d.numerator / d.denominator : ℚ) - x.value| =
          |(d.numerator / d.denominator : ℚ) - unitsAt other / 2 ^ 149| →
        other = x.magnitude ∨ x.bits.toNat % 2 = 0) := by
  -- The number that is read has the magnitude of the rounding, which has no nearer one in units.
  obtain ⟨-, unsigned, same⟩ := ofDecimal?_eq_some_iff.mp read
  obtain ⟨nearest, even⟩ := nearestMagnitude_nearest d.numerator (denominator_pos d) other
  rw [show nearestMagnitude d.numerator d.denominator = x.magnitude from same] at nearest even
  rw [value_of_unsigned unsigned, ← magnitude_of_unsigned unsigned]
  have unitsOfOne : (unitsPerOne : ℚ) = 2 ^ 149 := by
    rw [unitsPerOne_eq]
    push_cast
    rfl
  rw [unitsOfOne] at nearest even
  have onePositive : (0 : ℚ) < 2 ^ 149 := by positivity
  generalize (2 : ℚ) ^ 149 = one at onePositive nearest even ⊢
  -- Distances are one unit's worth of those that are counted in the smallest units.
  have inUnits : ∀ n : ℚ, |(d.numerator / d.denominator : ℚ) - n / one| =
      |(d.numerator * one / d.denominator : ℚ) - n| / one := by
    intro n
    have same : (d.numerator / d.denominator : ℚ) - n / one =
        ((d.numerator * one / d.denominator : ℚ) - n) / one := by
      field_simp
    rw [same, abs_div, abs_of_pos onePositive]
  rw [inUnits, inUnits]
  refine ⟨div_le_div_of_nonneg_right nearest onePositive.le, fun equal => even ?_⟩
  exact (div_left_inj' onePositive.ne').mp equal

/-- A decimal that is not refused is read as the number nearest to it. -/
theorem isNearest_of_ofDecimal? (read : ofDecimal? d = some x) :
    x.IsNearest (d.numerator / d.denominator) := by
  obtain ⟨finite, unsigned, -⟩ := ofDecimal?_eq_some_iff.mp read
  have rounded := nearest_of_ofDecimal? read
  have atLeastZero : (0 : ℚ) ≤ d.numerator / d.denominator := by positivity
  generalize (d.numerator / d.denominator : ℚ) = v at *
  -- Zero is as near as any number with a sign can be.
  obtain ⟨toZero, evenOfZero⟩ := rounded 0
  have zero : unitsAt 0 = 0 := by decide
  rw [zero, Nat.cast_zero, zero_div, sub_zero, abs_of_nonneg atLeastZero] at toZero evenOfZero
  have beyond : ∀ {y : Binary32}, y.isNegative = true →
      |v - y.value| = v + unitsAt y.magnitude / 2 ^ 149 := by
    intro y negative
    rw [value_of_negative negative, sub_neg_eq_add, abs_of_nonneg (by positivity)]
  refine ⟨finite, unsigned, fun y _ => ?_, fun y _ equal => ?_⟩
  · -- Other numbers without sign have a magnitude, and those with a sign are beyond zero.
    cases negative : y.isNegative with
    | false =>
      rw [value_of_unsigned negative]
      exact (rounded _).1
    | true =>
      rw [beyond negative]
      exact toZero.trans (le_add_of_nonneg_right (by positivity))
  · cases negative : y.isNegative with
    | false =>
      rw [value_of_unsigned negative] at equal ⊢
      refine ((rounded _).2 equal).imp_left fun same => ?_
      rw [same, value_of_unsigned unsigned]
    | true =>
      rw [beyond negative] at equal
      have size : (0 : ℚ) ≤ unitsAt y.magnitude / 2 ^ 149 := by positivity
      -- Then both are zero, or the one that is read is even.
      have none : (unitsAt y.magnitude / 2 ^ 149 : ℚ) = 0 := by linarith
      rw [none, add_zero] at equal
      refine (evenOfZero equal).imp_left fun same => ?_
      rw [value_of_negative negative, none, value_of_unsigned unsigned, ← same, zero]
      simp

/-- Numbers without sign are ordered as their encodings are. -/
theorem value_lt_value_iff (unsigned : x.isNegative = false) (unsigned' : y.isNegative = false) :
    x.value < y.value ↔ x.bits.toNat < y.bits.toNat := by
  -- Without signs, encodings are magnitudes, and larger magnitudes are larger numbers.
  rw [value_of_unsigned unsigned, value_of_unsigned unsigned',
    div_lt_div_iff_of_pos_right (by positivity), Nat.cast_lt, unitsAt_strictMono.lt_iff_lt,
    magnitude_of_unsigned unsigned, magnitude_of_unsigned unsigned']

/-- Of a larger value, the nearest number is not smaller. -/
theorem IsNearest.mono {w : ℚ} (nearest : x.IsNearest v) (nearest' : y.IsNearest w) (least : v ≤ w) :
    x.bits.toNat ≤ y.bits.toNat := by
  by_contra above
  have less := (value_lt_value_iff nearest'.unsigned nearest.unsigned).mpr (not_le.mp above)
  have far := nearest.nearest y nearest'.finite
  have far' := nearest'.nearest x nearest.finite
  -- Otherwise each value would lie beyond the middle of the two numbers, so that both are in it.
  have middle : (x.value + y.value) / 2 ≤ v := by
    by_contra below
    rw [abs_of_nonpos (by linarith), le_abs] at far
    rcases far with far | far <;> linarith
  have middle' : w ≤ (x.value + y.value) / 2 := by
    by_contra larger
    rw [abs_of_nonneg (by linarith), le_abs] at far'
    rcases far' with far' | far' <;> linarith
  obtain rfl : v = w := by linarith
  have distance : |v - x.value| = |v - y.value| := le_antisymm far far'
  -- In a tie both encodings are even, so that there is one between them.
  have even := (nearest.even y nearest'.finite distance).resolve_left less.ne
  have even' := (nearest'.even x nearest.finite distance.symm).resolve_left less.ne'
  have between : y.bits.toNat + 1 < x.bits.toNat := by omega
  obtain ⟨z, bits⟩ : ∃ z : Binary32, z.bits.toNat = y.bits.toNat + 1 :=
    ⟨⟨UInt32.ofNat (y.bits.toNat + 1)⟩,
      UInt32.toNat_ofNat_of_lt' (between.trans (UInt32.toNat_lt x.bits))⟩
  have unsigned : z.isNegative = false := by
    have bound := nearest.unsigned
    simp only [isNegative, decide_eq_false_iff_not] at bound ⊢
    omega
  have finite : z.isFinite = true := by
    have bound := nearest.finite
    simp only [isFinite, decide_eq_true_eq, magnitude_of_unsigned, unsigned,
      nearest.unsigned] at bound ⊢
    omega
  have larger := (value_lt_value_iff nearest'.unsigned unsigned).mpr (by omega)
  have under := (value_lt_value_iff unsigned nearest.unsigned).mpr (by omega)
  -- That one would be nearer than either of the two.
  have nearer := nearest.nearest z finite
  rw [abs_of_nonpos (by linarith), le_abs] at nearer
  rcases nearer with nearer | nearer <;> linarith

/-- There is only one nearest number. -/
theorem IsNearest.unique (nearest : x.IsNearest v) (nearest' : y.IsNearest v) : x = y := by
  -- Nearest numbers are monotone in the value, so each of the two is at most the other one.
  exact eq_of_bits (Nat.le_antisymm (nearest.mono nearest' le_rfl) (nearest'.mono nearest le_rfl))

/-- Between two decimals that are read as a number, all decimals are read as that number. -/
theorem ofDecimal?_between {below above : Decimal} (read : ofDecimal? below = some x)
    (read' : ofDecimal? above = some x)
    (least : (below.numerator / below.denominator : ℚ) ≤ d.numerator / d.denominator)
    (most : (d.numerator / d.denominator : ℚ) ≤ above.numerator / above.denominator) :
    ofDecimal? d = some x := by
  have nearest := isNearest_of_ofDecimal? read
  have nearest' := isNearest_of_ofDecimal? read'
  cases found : ofDecimal? d with
  | none =>
    -- What is refused is beyond all that is read.
    have large := (ofDecimal?_eq_none_iff.mp found).trans most
    rw [ofDecimal?_eq_none_iff.mpr large] at read'
    cases read'
  | some y =>
    have between := isNearest_of_ofDecimal? found
    rw [eq_of_bits (Nat.le_antisymm (nearest.mono between least) (between.mono nearest' most))]

end Binary32

end Shading
