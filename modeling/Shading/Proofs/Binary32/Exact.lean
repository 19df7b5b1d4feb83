import Mathlib.Tactic.Ring
import Mathlib.Tactic.Positivity
import Shading.Binary32.Rounding

/-! Reading a decimal that is a single-precision number gives that number. -/

namespace Shading

/-- A quotient without remainder is its own nearest integer. -/
theorem nearestEven_mul {den : Nat} (positive : 0 < den) (q : Nat) :
    nearestEven (den * q) den = q := by
  -- Nothing is left behind the point, so that the quotient is not rounded up.
  have whole : den * q / den = q := Nat.mul_div_cancel_left q positive
  have noRest : den * q % den = 0 := Nat.mul_mod_right den q
  simp [nearestEven, whole, noRest, positive]

/-- The nearest integer lies next to the quotient. -/
theorem nearestEven_bounds (num den : Nat) :
    num / den ≤ nearestEven num den ∧ nearestEven num den ≤ num / den + 1 := by
  -- Rounding adds one to the integer part, or leaves it as it is.
  dsimp only [nearestEven]
  split <;> omega

namespace Binary32

/-- One step of the exponent as a power of two. -/
theorem exponentStep_eq : exponentStep = 2 ^ 23 := by
  -- The fraction of an encoding takes the 23 bits below the exponent.
  decide

/-- The number one in the smallest units as a power of two. -/
theorem unitsPerOne_eq : unitsPerOne = 2 ^ 149 := by
  -- The smallest number is two to the power of minus 149.
  decide

variable {x : Binary32} {d : Decimal}

/-- Without a sign, the magnitude is the whole encoding. -/
theorem magnitude_of_unsigned (unsigned : x.isNegative = false) : x.magnitude = x.bits.toNat := by
  -- The sign is the highest bit, so leaving it out changes nothing where it is not set.
  have small : x.bits.toNat < signWeight := by simpa [isNegative] using unsigned
  exact Nat.mod_eq_of_lt small

/-- A decimal is read as the finite number without sign that has the magnitude it is rounded to. -/
theorem ofDecimal?_eq_some_iff : ofDecimal? d = some x ↔
    x.isFinite = true ∧ x.isNegative = false ∧ magnitudeOf d = x.magnitude := by
  constructor
  · -- A magnitude below infinity leaves the sign bit free, so the bits are the magnitude itself.
    intro read
    unfold ofDecimal? at read
    split at read
    · rename_i below
      cases read
      have infinite : infinity < signWeight := by decide
      have fits : signWeight < 2 ^ 32 := by decide
      have bits : (UInt32.ofNat (magnitudeOf d)).toNat = magnitudeOf d :=
        UInt32.toNat_ofNat_of_lt' (by show magnitudeOf d < 2 ^ 32; omega)
      simp only [isFinite, magnitude, isNegative, bits, decide_eq_true_eq, decide_eq_false_iff_not]
      rw [Nat.mod_eq_of_lt (by omega)]
      exact ⟨below, by omega, rfl⟩
    · cases read
  · -- Back again, the bits of a number without sign are made of its magnitude.
    rintro ⟨finite, unsigned, same⟩
    have below : x.magnitude < infinity := by simpa [isFinite] using finite
    unfold ofDecimal?
    rw [same, if_pos below, magnitude_of_unsigned unsigned, UInt32.ofNat_toNat]

/-- The size of the number with a given magnitude, in the smallest units. -/
def unitsAt (magnitude : Nat) : Nat :=
  let exponent := magnitude / exponentStep
  let fraction := magnitude % exponentStep
  if exponent = 0 then fraction else (exponentStep + fraction) <<< (exponent - 1)

/-- The size of a number depends on its magnitude only. -/
theorem units_eq (x : Binary32) : x.units = unitsAt x.magnitude :=
  -- The sign has no part in the size.
  rfl

/-- A full fraction above a number of steps is worth that many doublings. -/
theorem unitsAt_normal (dropped : Nat) {q : Nat} (least : exponentStep ≤ q) (most : q ≤ 2 * exponentStep) :
    unitsAt (dropped * exponentStep + q) = q * 2 ^ dropped := by
  rw [exponentStep_eq] at *
  by_cases carry : q = 2 * 2 ^ 23
  · -- The carry into the exponent leaves an empty fraction.
    subst carry
    have steps : (dropped * 2 ^ 23 + 2 * 2 ^ 23) / 2 ^ 23 = dropped + 2 := by omega
    have rest : (dropped * 2 ^ 23 + 2 * 2 ^ 23) % 2 ^ 23 = 0 := by omega
    simp only [unitsAt, exponentStep_eq, steps, rest, Nat.shiftLeft_eq]
    rw [if_neg (by omega), show dropped + 2 - 1 = dropped + 1 by omega, Nat.pow_succ]
    ring
  · -- Without a carry, the leading digit of the fraction is the implicit one.
    have steps : (dropped * 2 ^ 23 + q) / 2 ^ 23 = dropped + 1 := by omega
    have rest : (dropped * 2 ^ 23 + q) % 2 ^ 23 = q - 2 ^ 23 := by omega
    simp only [unitsAt, exponentStep_eq, steps, rest, Nat.shiftLeft_eq]
    rw [if_neg (by omega), show 2 ^ 23 + (q - 2 ^ 23) = q by omega,
      show dropped + 1 - 1 = dropped by omega]

/-- Rounding a size that is the size of a magnitude finds that magnitude. -/
theorem nearestMagnitude_exact {num den magnitude : Nat} (positive : 0 < den)
    (exact : num * unitsPerOne = den * unitsAt magnitude) :
    nearestMagnitude num den = magnitude := by
  have whole : den * unitsAt magnitude / den = unitsAt magnitude :=
    Nat.mul_div_cancel_left _ positive
  simp only [nearestMagnitude, exact, whole]
  have stepPositive : 0 < exponentStep := by decide
  have split := Nat.div_add_mod magnitude exponentStep
  have small := Nat.mod_lt magnitude stepPositive
  by_cases subnormal : magnitude / exponentStep = 0
  · -- Nothing is dropped of a size that fits into the fraction.
    have units : unitsAt magnitude = magnitude := by
      simp only [unitsAt, subnormal, if_true]
      rw [subnormal] at split
      omega
    have few : magnitude.log2 - 23 = 0 := by
      rcases Nat.eq_zero_or_pos magnitude with rfl | nonzero
      · simp
      · have below : magnitude < 2 ^ 23 := (Nat.div_eq_zero_iff_lt stepPositive).mp subnormal
        have := (Nat.log2_lt (by omega)).mpr below
        omega
    rw [units, few]
    simp [nearestEven_mul positive]
  · -- Of any other size the digits below the fraction are dropped, all of which are zero.
    generalize exponent : magnitude / exponentStep - 1 = dropped at *
    generalize fraction : magnitude % exponentStep = f at *
    have units : unitsAt magnitude = 2 ^ dropped * (exponentStep + f) := by
      simp only [unitsAt, if_neg subnormal, exponent, fraction, Nat.shiftLeft_eq]
      ring
    -- The leading digit of such a size is the implicit one, shifted by the exponent.
    have digits : (unitsAt magnitude).log2 = dropped + 23 := by
      rw [units, exponentStep_eq] at *
      refine (Nat.log2_eq_iff (by positivity)).mpr ⟨?_, ?_⟩
      · rw [Nat.pow_add]
        exact Nat.mul_le_mul_left _ (by omega)
      · rw [show dropped + 23 + 1 = dropped + 24 by omega, Nat.pow_add]
        exact Nat.mul_lt_mul_of_pos_left (by omega) (by positivity)
    rw [digits, units, Nat.shiftLeft_eq, ← Nat.mul_assoc, show dropped + 23 - 23 = dropped by omega,
      nearestEven_mul (by positivity)]
    -- The quotient and the rest put together are the magnitude again.
    have nonzero : 0 < magnitude / exponentStep := Nat.pos_of_ne_zero subnormal
    have same : magnitude / exponentStep = dropped + 1 := by omega
    rw [same, Nat.mul_add] at split
    rw [Nat.mul_comm dropped]
    omega

/-- An integer is rounded to an integral size. -/
theorem unitsAt_nearestMagnitude_one (n : Nat) :
    unitsPerOne ∣ unitsAt (nearestMagnitude n 1) := by
  rcases Nat.eq_zero_or_pos n with rfl | positive
  · decide
  · have scaledPositive : n * unitsPerOne ≠ 0 := by
      rw [unitsPerOne_eq]
      positivity
    -- Already the number one has 149 binary digits behind its first one in the smallest units.
    have manyDigits : 149 ≤ (n * unitsPerOne).log2 := by
      refine (Nat.le_log2 scaledPositive).mpr ?_
      rw [unitsPerOne_eq]
      exact Nat.le_mul_of_pos_left _ positive
    have lower := Nat.log2_self_le scaledPositive
    have upper := Nat.lt_log2_self (n := n * unitsPerOne)
    simp only [nearestMagnitude, Nat.div_one, Nat.shiftLeft_eq, Nat.one_mul]
    generalize length : (n * unitsPerOne).log2 - 23 = dropped at *
    have digits : (n * unitsPerOne).log2 = dropped + 23 := by omega
    rw [digits] at lower upper
    obtain ⟨least, most⟩ := nearestEven_bounds (n * unitsPerOne) (2 ^ dropped)
    have fractionLeast : 2 ^ 23 ≤ n * unitsPerOne / 2 ^ dropped := by
      rw [Nat.le_div_iff_mul_le (by positivity), ← Nat.pow_add, Nat.add_comm]
      exact lower
    have fractionMost : n * unitsPerOne / 2 ^ dropped < 2 ^ 24 := by
      rw [Nat.div_lt_iff_lt_mul (by positivity), ← Nat.pow_add, Nat.add_comm 24]
      exact upper
    rw [unitsAt_normal _ (by rw [exponentStep_eq]; omega) (by rw [exponentStep_eq]; omega)]
    by_cases wide : 149 ≤ dropped
    · -- All that is left is a multiple of the power of two that was dropped.
      rw [unitsPerOne_eq]
      exact Dvd.dvd.mul_left (Nat.pow_dvd_pow 2 wide) _
    · -- What is dropped is less than one, of which an integer has nothing.
      have exact : n * unitsPerOne = 2 ^ dropped * (n * 2 ^ (149 - dropped)) := by
        rw [unitsPerOne_eq, Nat.mul_left_comm, ← Nat.pow_add, show dropped + (149 - dropped) = 149 by omega]
      rw [exact, nearestEven_mul (by positivity), Nat.mul_comm, ← exact]
      exact Dvd.intro_left n rfl

end Binary32

end Shading
