import Shading.Proofs.Binary32.Nearest
import Shading.Proofs.Binary32.Shortest

/-! No decimal that is read as a number ends before the shortest one. -/

namespace Shading

namespace Binary32

variable {x : Binary32} {d : Decimal} {exponent : Int}

/-- A number is itself a decimal. -/
theorem exists_decimal (finite : x.isFinite = true) (unsigned : x.isNegative = false) :
    ∃ d, ofDecimal? d = some x ∧ (d.numerator / d.denominator : ℚ) = x.units / unitsPerOne := by
  -- The finest unit is a power of two, which powers of five complete to a power of ten.
  have ten : Decimal.tenTo 149 = unitsPerOne * 5 ^ 149 := by decide
  refine ⟨⟨x.units * 5 ^ 149, -149⟩, ofDecimal?_eq_some_iff.mpr ⟨finite, unsigned, ?_⟩, ?_⟩
  · refine nearestMagnitude_exact (denominator_pos _) ?_
    show x.units * 5 ^ 149 * 1 * unitsPerOne = Decimal.tenTo 149 * x.units
    rw [ten]
    ring
  · show ((x.units * 5 ^ 149 * 1 : ℕ) : ℚ) / (Decimal.tenTo 149 : ℕ) = _
    rw [ten, Nat.mul_one, Nat.cast_mul, Nat.cast_mul]
    exact mul_div_mul_right _ _ (by positivity)

/-- Where a multiple of a power of ten stands to a number, in whole numbers. -/
theorem multiple_le_iff (k : Nat) :
    ((⟨k, exponent⟩ : Decimal).numerator / (⟨k, exponent⟩ : Decimal).denominator : ℚ) ≤
        x.units / unitsPerOne ↔
      k * (unitsPerOne * Decimal.tenTo exponent.toNat) ≤
        x.units * Decimal.tenTo (-exponent).toNat := by
  -- Both fractions are multiplied by their denominators, which are positive.
  have onePositive : 0 < unitsPerOne := by decide
  have tenPositive := denominator_pos ⟨k, exponent⟩
  rw [div_le_div_iff₀ (by exact_mod_cast tenPositive) (by exact_mod_cast onePositive)]
  show ((k * Decimal.tenTo exponent.toNat : ℕ) * unitsPerOne : ℚ) ≤
    x.units * (Decimal.tenTo (-exponent).toNat : ℕ) ↔ _
  rw [← Nat.cast_mul, ← Nat.cast_mul, Nat.cast_le, Nat.mul_assoc, Nat.mul_comm unitsPerOne]

/-- More of a power of ten is more. -/
theorem multiple_mono {c k : Nat} (least : c ≤ k) :
    ((⟨c, exponent⟩ : Decimal).numerator / (⟨c, exponent⟩ : Decimal).denominator : ℚ) ≤
      (⟨k, exponent⟩ : Decimal).numerator / (⟨k, exponent⟩ : Decimal).denominator := by
  -- The denominator depends on the exponent alone, so that the coefficients decide.
  refine div_le_div_of_nonneg_right ?_ (Nat.cast_nonneg _)
  exact Nat.cast_le.mpr (Nat.mul_le_mul_right _ least)

/-- A grid with a decimal that is read as the number gives one. -/
theorem onGrid?_isSome_of_read {coefficient : Nat}
    (read : ofDecimal? ⟨coefficient, exponent⟩ = some x) : (onGrid? x exponent).isSome := by
  obtain ⟨finite, unsigned, -⟩ := ofDecimal?_eq_some_iff.mp read
  obtain ⟨self, readSelf, size⟩ := exists_decimal finite unsigned
  have place := @multiple_le_iff x exponent
  rw [← size] at place
  have tenPositive : ∀ n, 0 < Decimal.tenTo n := fun n => Nat.pow_pos (by decide)
  have denPositive : 0 < unitsPerOne * Decimal.tenTo exponent.toNat :=
    Nat.mul_pos (by decide) (tenPositive _)
  unfold onGrid?
  dsimp only
  generalize x.units * Decimal.tenTo (-exponent).toNat = num at *
  generalize unitsPerOne * Decimal.tenTo exponent.toNat = den at *
  -- The number lies between its neighbours on the grid, and one of them towards the decimal.
  have under := (place (num / den)).mpr (Nat.div_mul_le_self num den)
  have larger := mt (place (num / den + 1)).mp (Nat.not_le.mpr (Nat.lt_mul_of_div_lt (Nat.lt_succ_self _) denPositive))
  rcases Nat.lt_or_ge (num / den) coefficient with above | below
  · -- The upper neighbour lies between the number and the decimal, both of which read as it.
    have reads := ofDecimal?_between readSelf read (not_le.mp larger).le (multiple_mono above)
    have readsBack : readsBack x ⟨num / den + 1, exponent⟩ = true := by
      simpa [readsBack] using (ofDecimal?_eq_some_iff.mp reads).2.2
    rw [readsBack]
    split <;> simp
  · -- Otherwise the lower neighbour lies between the decimal and the number.
    have reads := ofDecimal?_between read readSelf (multiple_mono below) under
    have readsBack : readsBack x ⟨num / den, exponent⟩ = true := by
      simpa [readsBack] using (ofDecimal?_eq_some_iff.mp reads).2.2
    rw [readsBack]
    split
    · rfl
    · split <;> simp_all

/-- The grids are tried from the coarsest to the finest. -/
theorem gridExponents_descend : gridExponents.Pairwise (· > ·) := by
  -- The exponents are counted down from the largest one.
  refine List.pairwise_map.mpr (List.pairwise_lt_range.imp fun less => ?_)
  omega

/-- The grids go from the largest power of ten below all numbers to the places of the finest one. -/
theorem mem_gridExponents_iff : exponent ∈ gridExponents ↔ -149 ≤ exponent ∧ exponent ≤ 38 := by
  -- The place of a grid in the list is how far its exponent is below 38.
  simp only [gridExponents, List.mem_map, List.mem_range]
  constructor
  · rintro ⟨i, within, rfl⟩
    omega
  · rintro ⟨least, most⟩
    exact ⟨(38 - exponent).toNat, by omega, by omega⟩

/-- No multiple of a larger power of ten is read as a number other than zero. -/
theorem exponent_le_of_read (read : ofDecimal? d = some x) (nonzero : x.units ≠ 0) :
    d.exponent ≤ 38 := by
  -- A power of ten above all numbers can only be multiplied by zero to be read as one of them.
  by_contra large
  obtain ⟨-, -, same⟩ := ofDecimal?_eq_some_iff.mp read
  have noPlaces : d.denominator = 1 := by
    have none : (-d.exponent).toNat = 0 := by omega
    rw [Decimal.denominator, none]
    rfl
  rcases Nat.eq_zero_or_pos d.coefficient with zero | positive
  · -- No such power at all is zero.
    have zeroMagnitude : x.magnitude = 0 := by
      rw [← same, magnitudeOf, Decimal.numerator, zero, Nat.zero_mul, noPlaces]
      decide
    rw [units_eq, zeroMagnitude] at nonzero
    exact nonzero (by decide)
  · have enough : 10 ^ 39 ≤ d.numerator := by
      calc 10 ^ 39 ≤ 10 ^ d.exponent.toNat := Nat.pow_le_pow_right (by decide) (by omega)
        _ ≤ d.coefficient * 10 ^ d.exponent.toNat := Nat.le_mul_of_pos_left _ positive
    -- What is that large is rounded to no finite number.
    have refused : ofDecimal? d = none := by
      rw [ofDecimal?_eq_none_iff, noPlaces, Nat.cast_one, div_one]
      have cast : ((10 ^ 39 : ℕ) : ℚ) ≤ d.numerator := Nat.cast_le.mpr enough
      refine le_trans ?_ cast
      norm_num
    rw [refused] at read
    cases read

/-- No decimal that is read as a number other than zero ends before the shortest one. -/
theorem exponent_le_shortest (read : ofDecimal? d = some x) (nonzero : x.units ≠ 0) :
    d.exponent ≤ x.shortest.exponent := by
  -- The search tries the coarsest grids first, and a decimal that reads back lies on its own.
  have most := exponent_le_of_read read nonzero
  have onGrid := onGrid?_isSome_of_read read
  obtain ⟨coarser, last, finer, grids, found, missed⟩ :=
    List.findSome?_eq_some_iff.mp (shortest_found nonzero)
  rw [(onGrid?_eq_some found).1]
  have descend := gridExponents_descend
  have ofFound : last ∈ gridExponents := by simp [grids]
  by_cases tried : d.exponent ∈ gridExponents
  · -- Coarser grids gave nothing, so that this one is the last one tried or finer.
    rw [grids] at tried descend
    rcases List.mem_append.mp tried with before | behind
    · rw [missed _ before] at onGrid
      cases onGrid
    · rcases List.mem_cons.mp behind with same | after
      · exact same.le
      · have finer := (List.pairwise_cons.mp (List.pairwise_append.mp descend).2.1).1 _ after
        omega
  · have bounds := mem_gridExponents_iff.mp ofFound
    rw [mem_gridExponents_iff] at tried
    omega

end Binary32

end Shading
