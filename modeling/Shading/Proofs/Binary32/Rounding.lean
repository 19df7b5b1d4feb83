import Mathlib.Algebra.Order.Field.Basic
import Mathlib.Data.Rat.Cast.Order
import Mathlib.Tactic.FieldSimp
import Mathlib.Tactic.Linarith
import Mathlib.Tactic.NormNum
import Shading.Proofs.Binary32.Exact

/-! Rounding a quotient finds the nearest size, of two as near the one with the even magnitude. -/

namespace Shading

/-- The nearest integer lies within one half of a quotient, and is even where it lies that far off. -/
theorem nearestEven_half (num : Nat) {den : Nat} (positive : 0 < den) :
    |(num / den : ℚ) - nearestEven num den| ≤ 1 / 2 ∧
      (|(num / den : ℚ) - nearestEven num den| = 1 / 2 → nearestEven num den % 2 = 0) := by
  have denPositive : (0 : ℚ) < den := by exact_mod_cast positive
  have restLess := Nat.mod_lt num positive
  have split := Nat.div_add_mod num den
  unfold nearestEven
  generalize num / den = whole at *
  generalize num % den = rest at *
  -- Of the quotient, only the part behind the point is rounded.
  have quotient : (num / den : ℚ) = whole + rest / den := by
    rw [← split]
    push_cast
    field_simp
  have least : (0 : ℚ) ≤ rest / den := by positivity
  rw [quotient]
  dsimp only
  -- Below one half the quotient is rounded down, above it up, and in between both are as near.
  by_cases below : 2 * rest < den
  · have half : (rest / den : ℚ) < 1 / 2 := by
      rw [div_lt_div_iff₀ denPositive two_pos]
      exact_mod_cast (by omega : rest * 2 < 1 * den)
    rw [if_pos (by simp [below]), add_sub_cancel_left, abs_of_nonneg least]
    exact ⟨half.le, fun same => absurd same half.ne⟩
  by_cases above : den < 2 * rest
  · have half : (1 / 2 : ℚ) < rest / den := by
      rw [div_lt_div_iff₀ two_pos denPositive]
      exact_mod_cast (by omega : 1 * den < rest * 2)
    have most : (rest / den : ℚ) < 1 := by
      rw [div_lt_one denPositive]
      exact_mod_cast restLess
    have notTie : ¬ 2 * rest = den := by omega
    rw [if_neg (by simp [below, notTie])]
    push_cast
    -- Rounded up, the quotient falls short of the next integer by less than one half.
    have behind : (whole + rest / den - (whole + 1) : ℚ) = -(1 - rest / den) := by ring
    rw [behind, abs_neg, abs_of_pos (by linarith)]
    exact ⟨by linarith, fun same => by linarith⟩
  · -- In a tie the even one of the two neighbours is taken.
    have tie : 2 * rest = den := by omega
    have half : (rest / den : ℚ) = 1 / 2 := by
      rw [div_eq_div_iff denPositive.ne' two_ne_zero]
      exact_mod_cast (by omega : rest * 2 = 1 * den)
    rw [half]
    by_cases even : whole % 2 = 0
    · rw [if_pos (by simp [tie, even])]
      norm_num
      exact even
    · rw [if_neg (by simp [below, even])]
      push_cast
      norm_num
      omega

/-- Any other integer lies at least one half away from a quotient. -/
theorem nearestEven_apart {num den : Nat} (positive : 0 < den) {other : Nat}
    (differs : other ≠ nearestEven num den) : 1 / 2 ≤ |(num / den : ℚ) - other| := by
  have within := (nearestEven_half num positive).1
  generalize nearestEven num den = nearest at *
  -- Different integers are at least one apart, and the nearest takes at most half of that.
  have one : (1 : ℚ) ≤ |(nearest : ℚ) - other| := by
    have nonzero : (nearest : ℤ) - other ≠ 0 := by omega
    exact_mod_cast Int.one_le_abs nonzero
  have triangle := abs_sub_le (nearest : ℚ) (num / den) other
  rw [abs_sub_comm (nearest : ℚ) (num / den)] at triangle
  linarith

/-- A quotient is rounded below an even number where it lies more than one half below it. -/
theorem nearestEven_lt_iff {num den : Nat} (positive : 0 < den) {half : Nat} :
    nearestEven num den < 2 * half ↔ (num / den : ℚ) < 2 * half - 1 / 2 := by
  -- The rounded integer is within one half of the quotient, and the number in question is even.
  obtain ⟨within, tie⟩ := nearestEven_half num positive
  generalize nearestEven num den = nearest at *
  obtain ⟨least, most⟩ := abs_le.mp within
  constructor
  · intro below
    have cast : (nearest : ℚ) + 1 ≤ 2 * half := by exact_mod_cast below
    refine lt_of_le_of_ne (by linarith) fun same => ?_
    -- One half below the even number the odd one below it is as near, and is not taken.
    have odd : (nearest : ℚ) + 1 = 2 * half := le_antisymm cast (by linarith)
    have distance : (num / den : ℚ) - nearest = 1 / 2 := by linarith
    have even := tie (by rw [distance, abs_of_pos one_half_pos])
    have : nearest + 1 = 2 * half := by exact_mod_cast odd
    omega
  · intro below
    by_contra above
    have cast : (2 * half : ℚ) ≤ nearest := by exact_mod_cast not_lt.mp above
    linarith

namespace Binary32

/-- A magnitude is a fraction alone, or a full fraction above a number of doublings. -/
theorem unitsAt_cases (magnitude : Nat) :
    (magnitude < exponentStep ∧ unitsAt magnitude = magnitude) ∨
      ∃ dropped q, exponentStep ≤ q ∧ q < 2 * exponentStep ∧
        magnitude = dropped * exponentStep + q ∧ unitsAt magnitude = q * 2 ^ dropped := by
  have small := Nat.mod_lt magnitude (show 0 < exponentStep by decide)
  have split := Nat.div_add_mod' magnitude exponentStep
  -- Without a biased exponent there is no implicit digit, and no doubling.
  by_cases subnormal : magnitude / exponentStep = 0
  · rw [subnormal] at split
    refine .inl ⟨by omega, ?_⟩
    simp only [unitsAt, subnormal, if_true]
    omega
  · -- The exponent is one more than the doublings, and the fraction gets the implicit digit.
    refine .inr ⟨magnitude / exponentStep - 1, exponentStep + magnitude % exponentStep,
      by omega, by omega, ?_, ?_⟩
    · have steps : magnitude / exponentStep - 1 + 1 = magnitude / exponentStep :=
        Nat.succ_pred_eq_of_ne_zero subnormal
      rw [← steps, Nat.succ_mul] at split
      omega
    · simp only [unitsAt, if_neg subnormal, Nat.shiftLeft_eq]

/-- The size of a full fraction with nothing dropped is the fraction. -/
theorem unitsAt_fraction {q : Nat} (most : q ≤ 2 * exponentStep) : unitsAt q = q := by
  -- A fraction without an exponent counts units, and so does one with the smallest exponent.
  rcases Nat.lt_or_ge q exponentStep with below | least
  · rcases unitsAt_cases q with ⟨-, same⟩ | ⟨dropped, q', least, -, same, -⟩
    · exact same
    · omega
  · simpa using unitsAt_normal 0 least most

/-- The next magnitude is the next larger number. -/
theorem unitsAt_lt_succ (magnitude : Nat) : unitsAt magnitude < unitsAt (magnitude + 1) := by
  -- The next magnitude has one more unit of the last place, even where the fraction carries over.
  rcases unitsAt_cases magnitude with ⟨below, same⟩ | ⟨dropped, q, least, most, rfl, same⟩
  · rw [same, unitsAt_fraction (by omega)]
    omega
  · rw [same, Nat.add_assoc, unitsAt_normal _ (by omega) (by omega)]
    exact Nat.mul_lt_mul_of_pos_right (by omega) (by positivity)

/-- Larger magnitudes are larger numbers. -/
theorem unitsAt_strictMono : StrictMono unitsAt :=
  -- Each magnitude is below the next one, which is enough on the natural numbers.
  strictMono_nat_of_lt_succ unitsAt_lt_succ

/-- In multiples of a power of two, all sizes are whole but those that are smaller than `2 ^ 23` of them. -/
theorem dvd_unitsAt_or_lt (dropped magnitude : Nat) :
    2 ^ dropped ∣ unitsAt magnitude ∨ unitsAt magnitude < 2 ^ (dropped + 23) := by
  -- The digits of a size start at its number of doublings, and there are at most 24 of them.
  rw [Nat.add_comm, Nat.pow_add, ← exponentStep_eq]
  rcases unitsAt_cases magnitude with ⟨below, same⟩ | ⟨shift, q, least, most, rfl, same⟩
  · right
    rw [same]
    exact below.trans_le (Nat.le_mul_of_pos_right _ (by positivity))
  · rw [same]
    rcases Nat.lt_or_ge shift dropped with fewer | more
    · right
      -- One doubling more makes up for the leading digit.
      calc q * 2 ^ shift < 2 * exponentStep * 2 ^ shift :=
            Nat.mul_lt_mul_of_pos_right most (by positivity)
        _ = exponentStep * 2 ^ (shift + 1) := by ring
        _ ≤ exponentStep * 2 ^ dropped :=
            Nat.mul_le_mul_left _ (Nat.pow_le_pow_right two_pos fewer)
    · left
      exact Dvd.dvd.mul_left (Nat.pow_dvd_pow 2 more) _

/-- How a quotient is rounded: its size loses the binary digits that it has beyond the first 24. -/
structure Rounding (num den dropped q : Nat) : Prop where
  nearest : q = nearestEven (num * unitsPerOne) (den * 2 ^ dropped)
  magnitude : nearestMagnitude num den = dropped * exponentStep + q
  size : unitsAt (nearestMagnitude num den) = q * 2 ^ dropped
  least : dropped = 0 ∨ den * 2 ^ (dropped + 23) ≤ num * unitsPerOne ∧ exponentStep ≤ q
  most : num * unitsPerOne < den * 2 ^ (dropped + 24)
  fits : q ≤ 2 * exponentStep

/-- Every quotient is rounded in this way. -/
theorem exists_rounding (num : Nat) {den : Nat} (positive : 0 < den) :
    ∃ dropped q, Rounding num den dropped q := by
  -- The digits to be dropped are those beyond the first 24 ones.
  have form : nearestMagnitude num den = ((num * unitsPerOne / den).log2 - 23) * exponentStep +
      nearestEven (num * unitsPerOne) (den * 2 ^ ((num * unitsPerOne / den).log2 - 23)) := by
    simp only [nearestMagnitude, Nat.shiftLeft_eq]
  have upper : num * unitsPerOne / den < 2 ^ ((num * unitsPerOne / den).log2 + 1) :=
    Nat.lt_log2_self
  generalize digits : (num * unitsPerOne / den).log2 - 23 = dropped at *
  have most : num * unitsPerOne < den * 2 ^ (dropped + 24) := by
    rw [Nat.mul_comm den, ← Nat.div_lt_iff_lt_mul positive]
    exact upper.trans_le (Nat.pow_le_pow_right two_pos (by omega))
  -- What is kept of the quotient has at most 24 digits.
  have fractionMost : num * unitsPerOne / (den * 2 ^ dropped) < 2 * exponentStep := by
    rw [Nat.div_lt_iff_lt_mul (by positivity), exponentStep_eq]
    refine most.trans_eq ?_
    ring
  have least : dropped = 0 ∨ den * 2 ^ (dropped + 23) ≤ num * unitsPerOne ∧
      exponentStep ≤ num * unitsPerOne / (den * 2 ^ dropped) := by
    refine or_iff_not_imp_left.mpr fun some => ?_
    -- Where digits are dropped, 24 of them are left.
    have nonzero : num * unitsPerOne / den ≠ 0 := by
      intro zero
      rw [zero, Nat.log2_zero] at digits
      omega
    have lower := Nat.log2_self_le nonzero
    rw [show (num * unitsPerOne / den).log2 = dropped + 23 by omega,
      Nat.le_div_iff_mul_le positive, Nat.mul_comm] at lower
    refine ⟨lower, ?_⟩
    rw [Nat.le_div_iff_mul_le (by positivity), exponentStep_eq]
    refine lower.trans_eq' ?_
    ring
  obtain ⟨roundedLeast, roundedMost⟩ := nearestEven_bounds (num * unitsPerOne) (den * 2 ^ dropped)
  refine ⟨dropped, _, rfl, form, ?_, least.imp_right (And.imp_right fun full => by omega), most,
    by omega⟩
  rw [form]
  rcases least with rfl | ⟨-, full⟩
  · -- Nothing is dropped of a size with at most 24 digits.
    rw [Nat.zero_mul, Nat.zero_add, Nat.pow_zero, Nat.mul_one, Nat.mul_one]
    rw [Nat.pow_zero, Nat.mul_one] at roundedMost fractionMost
    exact unitsAt_fraction (by omega)
  · exact unitsAt_normal _ (by omega) (by omega)

/-- No size is nearer to a quotient than the rounded one, and one as near differs only in a tie. -/
theorem nearestMagnitude_nearest (num : Nat) {den : Nat} (positive : 0 < den) (other : Nat) :
    |(num * unitsPerOne / den : ℚ) - unitsAt (nearestMagnitude num den)| ≤
        |(num * unitsPerOne / den : ℚ) - unitsAt other| ∧
      (|(num * unitsPerOne / den : ℚ) - unitsAt (nearestMagnitude num den)| =
          |(num * unitsPerOne / den : ℚ) - unitsAt other| →
        other = nearestMagnitude num den ∨ nearestMagnitude num den % 2 = 0) := by
  obtain ⟨dropped, q, nearest, form, size, enough, -, -⟩ := exists_rounding num positive
  generalize nearestMagnitude num den = found at *
  have denPositive : (0 : ℚ) < den := by exact_mod_cast positive
  have stepPositive : (0 : ℚ) < 2 ^ dropped := by positivity
  have scaledPositive : 0 < den * 2 ^ dropped := by positivity
  obtain ⟨within, tie⟩ := nearestEven_half (num * unitsPerOne) scaledPositive
  have apart := @nearestEven_apart (num * unitsPerOne) _ scaledPositive
  rw [← nearest] at within tie apart
  -- Everything is measured in multiples of the power of two that was dropped.
  generalize ratio : (((num * unitsPerOne : ℕ) : ℚ) / ((den * 2 ^ dropped : ℕ) : ℚ)) = r at *
  have exact : (num * unitsPerOne / den : ℚ) = r * 2 ^ dropped := by
    rw [← ratio]
    push_cast
    field_simp
  have foundSize : (unitsAt found : ℚ) = q * 2 ^ dropped := by
    rw [size]
    push_cast
    rfl
  rw [exact, foundSize, ← sub_mul, abs_mul, abs_of_pos stepPositive]
  -- Another size is such a multiple too, or it is smaller than all that have a full fraction.
  have whole : 2 ^ dropped ∣ unitsAt other ∨
      unitsAt other < 2 ^ (dropped + 23) ∧ (2 : ℚ) ^ 23 ≤ r := by
    rcases enough with none | ⟨enough, -⟩
    · left
      rw [none, Nat.pow_zero]
      exact Nat.one_dvd _
    · refine (dvd_unitsAt_or_lt dropped other).imp_right fun below => ⟨below, ?_⟩
      have enoughHere : ((den * 2 ^ (dropped + 23) : ℕ) : ℚ) ≤ (num * unitsPerOne : ℕ) :=
        Nat.cast_le.mpr enough
      rw [← ratio, le_div_iff₀ (Nat.cast_pos.mpr scaledPositive)]
      calc (2 : ℚ) ^ 23 * ((den * 2 ^ dropped : ℕ) : ℚ) = ((den * 2 ^ (dropped + 23) : ℕ) : ℚ) := by
            push_cast
            ring
        _ ≤ _ := enoughHere
  rcases whole with ⟨j, multiple⟩ | ⟨below, least⟩
  · have otherSize : (unitsAt other : ℚ) = j * 2 ^ dropped := by
      rw [multiple]
      push_cast
      ring
    rw [otherSize, ← sub_mul, abs_mul, abs_of_pos stepPositive]
    by_cases same : j = q
    · subst same
      have sameSize : unitsAt other = unitsAt found := by rw [multiple, size, Nat.mul_comm]
      exact ⟨le_rfl, fun _ => .inl (unitsAt_strictMono.injective sameSize)⟩
    · have far := apart same
      refine ⟨mul_le_mul_of_nonneg_right (within.trans far) stepPositive.le, fun equal => .inr ?_⟩
      -- Two multiples are as near only if each is one half away.
      have near : |r - q| = |r - j| := mul_right_cancel₀ stepPositive.ne' equal
      have even : q % 2 = 0 := tie (le_antisymm within (near ▸ far))
      rw [form, exponentStep_eq]
      omega
  · -- A smaller size is further off than the smallest one with all digits.
    have smallest : |r - q| ≤ r - 2 ^ 23 := by
      rw [← abs_of_nonneg (sub_nonneg.mpr least)]
      by_cases same : q = 2 ^ 23
      · rw [same]
        push_cast
        exact le_refl _
      · have far := apart (Ne.symm same)
        push_cast at far
        exact within.trans far
    have otherSize : (unitsAt other : ℚ) < 2 ^ 23 * 2 ^ dropped := by
      rw [← pow_add, Nat.add_comm 23]
      exact_mod_cast below
    have further : |r - q| * 2 ^ dropped < r * 2 ^ dropped - unitsAt other := by
      have scaled := mul_le_mul_of_nonneg_right smallest stepPositive.le
      rw [sub_mul] at scaled
      linarith
    have strict := further.trans_le (le_abs_self _)
    exact ⟨strict.le, fun equal => absurd equal strict.ne⟩

/-- A quotient is rounded to a finite size below the middle of the largest one and the next power of two. -/
theorem nearestMagnitude_lt_infinity_iff (num : Nat) {den : Nat} (positive : 0 < den) :
    nearestMagnitude num den < infinity ↔ (num / den : ℚ) < 2 ^ 128 - 2 ^ 103 := by
  obtain ⟨dropped, q, nearest, form, -, enough, most, fits⟩ := exists_rounding num positive
  have denPositive : (0 : ℚ) < den := by exact_mod_cast positive
  have limit : infinity = 255 * exponentStep := rfl
  have onePositive : (0 : ℚ) < 2 ^ 149 := by positivity
  have stepPositive : 0 < exponentStep := by decide
  rw [form, limit]
  rw [unitsPerOne_eq] at *
  -- The number of digits that are dropped tells on which side of the limit the size is.
  rcases Nat.lt_trichotomy dropped 253 with few | rfl | many
  · -- The size has too few digits to come near the limit.
    have small : (num / den : ℚ) < 2 ^ 127 := by
      have enlarged : num * 2 ^ 149 < den * 2 ^ 127 * 2 ^ 149 := by
        have fewer : 2 ^ dropped ≤ 2 ^ 252 := Nat.pow_le_pow_right two_pos (by omega)
        rw [Nat.pow_add] at most
        calc num * 2 ^ 149 < den * (2 ^ dropped * 2 ^ 24) := most
          _ ≤ den * (2 ^ 252 * 2 ^ 24) := by gcongr
          _ = den * 2 ^ 127 * 2 ^ 149 := by ring
      rw [div_lt_iff₀ denPositive, mul_comm]
      exact_mod_cast Nat.lt_of_mul_lt_mul_right enlarged
    have finite : dropped * exponentStep + q < 255 * exponentStep := by
      have := Nat.mul_le_mul_right exponentStep (show dropped ≤ 252 by omega)
      omega
    exact iff_of_true finite (small.trans (by norm_num))
  · -- Among the sizes with the most digits, the last half of a step is rounded up to the limit.
    have scaledPositive : 0 < den * 2 ^ 253 := by positivity
    have finite : 253 * exponentStep + q < 255 * exponentStep ↔ q < 2 * exponentStep := by omega
    have ratio : (((num * 2 ^ 149 : ℕ) : ℚ) / ((den * 2 ^ 253 : ℕ) : ℚ)) =
        (num / den : ℚ) / 2 ^ 104 := by
      have powers : (2 : ℚ) ^ 253 = 2 ^ 149 * 2 ^ 104 := by rw [← pow_add]
      simp only [Nat.cast_mul, Nat.cast_pow, Nat.cast_ofNat, powers]
      generalize (2 : ℚ) ^ 149 = one at *
      field_simp
    rw [finite, nearest, nearestEven_lt_iff scaledPositive, ratio, div_lt_iff₀ (by positivity),
      exponentStep_eq]
    norm_num
  · -- The size has more digits than the limit.
    obtain ⟨lower, full⟩ := enough.resolve_left (by omega)
    have large : (2 : ℚ) ^ 128 ≤ num / den := by
      have enlarged : den * 2 ^ 128 * 2 ^ 149 ≤ num * 2 ^ 149 := by
        have more : 2 ^ 254 ≤ 2 ^ dropped := Nat.pow_le_pow_right two_pos (by omega)
        rw [Nat.pow_add] at lower
        calc den * 2 ^ 128 * 2 ^ 149 = den * (2 ^ 254 * 2 ^ 23) := by ring
          _ ≤ den * (2 ^ dropped * 2 ^ 23) := by gcongr
          _ ≤ num * 2 ^ 149 := lower
      rw [le_div_iff₀ denPositive, mul_comm]
      exact_mod_cast Nat.le_of_mul_le_mul_right enlarged (by positivity)
    have infinite : ¬ dropped * exponentStep + q < 255 * exponentStep := by
      have := Nat.mul_le_mul_right exponentStep (show 254 ≤ dropped by omega)
      omega
    refine iff_of_false infinite (not_lt.mpr (le_trans ?_ large))
    norm_num

end Binary32

end Shading
