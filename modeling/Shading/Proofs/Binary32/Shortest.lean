import Mathlib.Tactic.Positivity
import Mathlib.Tactic.Ring
import Shading.Binary32.Shortest
import Shading.Proofs.Binary32.Exact

/-! The printed digits of a number are read back as the same number. -/

namespace Shading

namespace Binary32

variable {x : Binary32} {d : Decimal} {exponent : Int}

/-- Whatever a grid gives lies on it and reads back. -/
theorem onGrid?_eq_some (found : onGrid? x exponent = some d) :
    d.exponent = exponent ∧ magnitudeOf d = x.magnitude := by
  -- Each of the two neighbours on the grid is given only after it was read back.
  unfold onGrid? at found
  dsimp only at found
  split at found
  · rename_i below
    cases found
    simp only [readsBack, Bool.and_eq_true, beq_iff_eq] at below
    exact ⟨rfl, below.1⟩
  · -- The lower neighbour is tried first, and the upper one only if it fails.
    split at found
    · rename_i above
      cases found
      exact ⟨rfl, by simpa [readsBack] using above⟩
    · cases found

/-- A grid that the number lies on gives a decimal. -/
theorem onGrid?_isSome (multiple : unitsPerOne * Decimal.tenTo exponent.toNat ∣
    x.units * Decimal.tenTo (-exponent).toNat) : (onGrid? x exponent).isSome := by
  obtain ⟨q, exact⟩ := multiple
  have onePositive : 0 < unitsPerOne := by
    rw [unitsPerOne_eq]
    positivity
  have tenPositive : ∀ n, 0 < Decimal.tenTo n := fun n => Nat.pow_pos (by decide)
  have denPositive : 0 < unitsPerOne * Decimal.tenTo exponent.toNat :=
    Nat.mul_pos onePositive (tenPositive _)
  -- The number is the multiple below itself, which leaves no remainder.
  have whole : x.units * Decimal.tenTo (-exponent).toNat /
      (unitsPerOne * Decimal.tenTo exponent.toNat) = q := by
    rw [exact, Nat.mul_div_cancel_left q denPositive]
  have noRest : x.units * Decimal.tenTo (-exponent).toNat %
      (unitsPerOne * Decimal.tenTo exponent.toNat) = 0 := by
    rw [exact, Nat.mul_mod_right]
  -- As the decimal is the number itself, it reads back without any rounding.
  have below : magnitudeOf ⟨q, exponent⟩ = x.magnitude := by
    refine nearestMagnitude_exact (tenPositive _) ?_
    show q * Decimal.tenTo exponent.toNat * unitsPerOne = Decimal.tenTo (-exponent).toNat * x.units
    rw [Nat.mul_comm (Decimal.tenTo (-exponent).toNat), exact]
    ring
  simp [onGrid?, whole, noRest, readsBack, below, denPositive]

/-- Integers are tried before fractions. -/
theorem gridExponents_split :
    gridExponents = (List.range 38).map (fun (i : Nat) => 38 - (i : Int)) ++ 0 ::
      (List.range 149).map fun (i : Nat) => -1 - (i : Int) := by
  -- The list is closed, so both sides are computed.
  decide +kernel

/-- A number of no size is the one of no magnitude. -/
theorem magnitudeOf_zero (none : x.units = 0) : magnitudeOf ⟨0, 0⟩ = x.magnitude := by
  -- Zero is rounded exactly, and it is the only number without size.
  refine nearestMagnitude_exact (by decide) ?_
  rw [← units_eq, none]
  decide

/-- Some grid gives a decimal, the finest one if no other does. -/
theorem shortest_found (nonzero : x.units ≠ 0) :
    gridExponents.findSome? (onGrid? x) = some x.shortest := by
  -- Every number is a multiple of the finest unit, which lies on the finest grid.
  have finest : (onGrid? x (-149)).isSome := by
    refine onGrid?_isSome ?_
    have ten : Decimal.tenTo (- -149 : Int).toNat = unitsPerOne * 5 ^ 149 := by decide
    have one : Decimal.tenTo (-149 : Int).toNat = 1 := by decide
    rw [ten, one, Nat.mul_one]
    exact ⟨x.units * 5 ^ 149, Nat.mul_left_comm _ _ _⟩
  -- The finest grid is among those that are tried, so that some grid gives a decimal.
  have tried : (-149 : Int) ∈ gridExponents := by decide
  cases found : gridExponents.findSome? (onGrid? x) with
  | none =>
    have nothing := List.findSome?_eq_none_iff.mp found _ tried
    simp [nothing] at finest
  | some d => simp [shortest, nonzero, found]

/-- The shortest decimal reads back. -/
theorem magnitudeOf_shortest (x : Binary32) : magnitudeOf x.shortest = x.magnitude := by
  -- Zero is written as it is, and every other number by a grid that reads back.
  by_cases nonzero : x.units = 0
  · rw [shortest, if_pos nonzero]
    exact magnitudeOf_zero nonzero
  · obtain ⟨exponent, -, found⟩ := List.exists_of_findSome?_eq_some (shortest_found nonzero)
    exact (onGrid?_eq_some found).2

/-- The shortest decimal of an integral number has no places behind the point. -/
theorem shortest_exponent_of_integral (integral : x.isIntegral = true) :
    0 ≤ x.shortest.exponent := by
  -- Zero has no places, and every other integral number lies on the grid of the integers.
  by_cases nonzero : x.units = 0
  · rw [shortest, if_pos nonzero]
  · have onInteger : (onGrid? x 0).isSome := by
      refine onGrid?_isSome ?_
      have whole : x.units % unitsPerOne = 0 := by
        simp only [isIntegral, Bool.and_eq_true, beq_iff_eq] at integral
        exact integral.2
      simpa [Decimal.tenTo] using Nat.dvd_of_mod_eq_zero whole
    have found := shortest_found nonzero
    rw [gridExponents_split, List.findSome?_append, List.findSome?_cons] at found
    -- Either a coarser grid gives a decimal or that of the integers does.
    cases coarse : List.findSome? (onGrid? x)
        ((List.range 38).map fun (i : Nat) => 38 - (i : Int)) with
    -- A coarser grid has a positive exponent.
    | some d =>
      obtain ⟨exponent, member, onCoarse⟩ := List.exists_of_findSome?_eq_some coarse
      obtain ⟨i, within, rfl⟩ := List.mem_map.mp member
      have := List.mem_range.mp within
      rw [coarse] at found
      obtain rfl : d = x.shortest := by simpa using found
      rw [(onGrid?_eq_some onCoarse).1]
      omega
    | none =>
      obtain ⟨d, onZero⟩ := Option.isSome_iff_exists.mp onInteger
      rw [coarse, onZero] at found
      obtain rfl : d = x.shortest := by simpa using found
      rw [(onGrid?_eq_some onZero).1]

/-- The shortest decimal of any other finite number has such places. -/
theorem shortest_exponent_of_fractional (finite : x.isFinite = true)
    (fractional : x.isIntegral = false) : x.shortest.exponent < 0 := by
  by_contra whole
  -- An integer is read as an integral number.
  have noPlaces : (-x.shortest.exponent).toNat = 0 := by omega
  have integral := unitsAt_nearestMagnitude_one x.shortest.numerator
  have reads : nearestMagnitude x.shortest.numerator 1 = x.magnitude := by
    have same := magnitudeOf_shortest x
    rwa [magnitudeOf, Decimal.denominator, noPlaces] at same
  rw [reads, ← units_eq] at integral
  simp [isIntegral, finite, Nat.mod_eq_zero_of_dvd integral] at fractional

end Binary32

namespace Decimal

variable {d : Decimal}

/-- Without places behind the point, the characters are the digits of the number. -/
theorem plain_of_nonneg (whole : 0 ≤ d.exponent) :
    d.plain ≠ [] ∧ (∀ c ∈ d.plain, c.isDigit = true) ∧
      Binary32.magnitudeOf (.ofParts d.plain []) = Binary32.magnitudeOf d := by
  have characters : d.plain =
      Nat.toDigits 10 d.coefficient ++ List.replicate d.exponent.toNat '0' := if_pos whole
  rw [characters]
  refine ⟨by simp [Nat.toDigits_ne_nil], ?_, ?_⟩
  · -- Behind the digits of the coefficient there are only zeros.
    intro c member
    rcases List.mem_append.mp member with digit | zero
    · exact Nat.isDigit_of_mem_toDigits (by decide) (by decide) digit
    · rw [List.eq_of_mem_replicate zero]
      rfl
  · -- The zeros at the end are the factors of ten.
    have noPlaces : (-d.exponent).toNat = 0 := by omega
    have value : ofDigits (Nat.toDigits 10 d.coefficient ++
        List.replicate d.exponent.toNat '0') = d.coefficient * tenTo d.exponent.toNat := by
      rw [ofDigits, Nat.ofDigitChars_append, Nat.ofDigitChars_ten_toDigits,
        Nat.ofDigitChars_replicate_zero, Nat.mul_comm]
      rfl
    simp [Binary32.magnitudeOf, ofParts, numerator, denominator, value, noPlaces, tenTo]

/-- With places behind the point, the characters are the digits around it. -/
theorem plain_of_neg (places : d.exponent < 0) :
    ∃ whole fraction, d.plain = whole ++ '.' :: fraction ∧ whole ≠ [] ∧
      (∀ c ∈ whole, c.isDigit = true) ∧ (∀ c ∈ fraction, c.isDigit = true) ∧
      Decimal.ofParts whole fraction = d := by
  generalize count : (-d.exponent).toNat = n
  generalize digits : Nat.toDigits 10 d.coefficient = run
  generalize padding : List.replicate (n + 1 - run.length) '0' ++ run = padded
  -- Zeros in front make room for a digit before the point.
  have long : n + 1 ≤ padded.length := by
    rw [← padding]
    simp
    omega
  have allDigits : ∀ c ∈ padded, c.isDigit = true := by
    intro c member
    rw [← padding] at member
    rcases List.mem_append.mp member with zero | digit
    · rw [List.eq_of_mem_replicate zero]
      rfl
    · rw [← digits] at digit
      exact Nat.isDigit_of_mem_toDigits (by decide) (by decide) digit
  -- They add nothing to the number that the digits stand for.
  have value : ofDigits padded = d.coefficient := by
    rw [← padding, ofDigits, Nat.ofDigitChars_append, Nat.ofDigitChars_replicate_zero, ← digits]
    simp
  refine ⟨padded.take (padded.length - n), padded.drop (padded.length - n), ?_, ?_, ?_, ?_, ?_⟩
  · unfold plain
    rw [if_neg (by omega)]
    simp only [count, digits, padding]
  · intro none
    have := congrArg List.length none
    simp at this
    omega
  · exact fun c member => allDigits c (List.mem_of_mem_take member)
  · exact fun c member => allDigits c (List.mem_of_mem_drop member)
  · -- What stands behind the point has as many digits as the exponent has places.
    have fractionLength : (padded.drop (padded.length - n)).length = n := by
      simp
      omega
    have exponent : -(n : Int) = d.exponent := by omega
    rw [ofParts, List.take_append_drop, value, fractionLength, exponent]

end Decimal

end Shading
