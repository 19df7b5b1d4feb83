import Shading.Glsl.Expr
import Shading.Proofs.Binary32.Shortest
import Shading.Proofs.Lexer.Spelling

/-! Written numbers are read back as the numbers they were written for. -/

namespace Shading.Glsl

open Cursor

variable {line : Nat} {after : List Char}

/-- The digits of a number are digits. -/
theorem isDigit_toDigits (n : Nat) : ∀ c ∈ Nat.toDigits 10 n, c.isDigit = true :=
  -- The base is ten, so that there are no letters among them.
  fun _ member => Nat.isDigit_of_mem_toDigits (by decide) (by decide) member

/-- A written integer is read back where no point follows. -/
theorem next_repr {n : Nat} (small : n ≤ largestInteger) (ends : EndsRun after)
    (noPoint : '.' ∉ after.head?) :
    next ⟨n.repr.toList ++ after, line⟩ = ⟨.ok ⟨.integer n.repr n, line⟩, ⟨after, line⟩⟩ := by
  -- The digits are those of the number, which is small enough to be read.
  have value : Decimal.ofDigits (Nat.toDigits 10 n) = n := Nat.ofDigitChars_ten_toDigits
  have read : next ⟨Nat.toDigits 10 n ++ after, line⟩ = _ :=
    next_integer Nat.toDigits_ne_nil (isDigit_toDigits n) (by rw [value]; exact small) ends noPoint
  rw [value, ← Nat.repr_eq_ofList_toDigits] at read
  rw [Nat.toList_repr]
  exact read

/--
The literal of a finite number without sign is made of digits around a point that read back.

The last of them stands in the place where the shortest decimal ends.
-/
theorem floatLiteral_parts {x : Binary32} (finite : x.isFinite = true)
    (unsigned : x.isNegative = false) :
    ∃ whole fraction, floatLiteral x = String.ofList (whole ++ '.' :: fraction) ∧ whole ≠ [] ∧
      (∀ c ∈ whole, c.isDigit = true) ∧ (∀ c ∈ fraction, c.isDigit = true) ∧
      Binary32.ofDecimal? (.ofParts whole fraction) = some x ∧
      fraction.length = (-x.shortest.exponent).toNat := by
  have reads := Binary32.magnitudeOf_shortest x
  have isNumber : x.isNaN = false := by
    simp only [Binary32.isFinite, decide_eq_true_eq] at finite
    simp only [Binary32.isNaN, decide_eq_false_iff_not]
    omega
  -- The number is finite and has no sign, so that its characters are those of the decimal.
  have characters : x.plain = x.shortest.plain := by
    simp [Binary32.plain, isNumber, unsigned, finite]
  cases integral : x.isIntegral with
  | true =>
    -- The point stands behind all digits.
    have noPlaces := Binary32.shortest_exponent_of_integral integral
    obtain ⟨nonempty, digits, same⟩ := Decimal.plain_of_nonneg noPlaces
    refine ⟨x.shortest.plain, [], ?_, nonempty, digits, by simp, ?_, ?_⟩
    · simp [floatLiteral, integral, characters]
    · exact Binary32.ofDecimal?_eq_some_iff.mpr ⟨finite, unsigned, same.trans reads⟩
    · rw [List.length_nil]
      omega
  -- The point stands among the digits, where the shortest decimal has it.
  | false =>
    obtain ⟨whole, fraction, split, nonempty, digitsWhole, digitsFraction, parts⟩ :=
      Decimal.plain_of_neg (Binary32.shortest_exponent_of_fractional finite integral)
    refine ⟨whole, fraction, ?_, nonempty, digitsWhole, digitsFraction, ?_, ?_⟩
    · simp [floatLiteral, integral, characters, split]
    · rw [parts]
      exact Binary32.ofDecimal?_eq_some_iff.mpr ⟨finite, unsigned, reads⟩
    · have places : x.shortest.exponent = -fraction.length := by rw [← parts]; rfl
      omega

/-- A written float is read back, even where a point follows. -/
theorem next_floatLiteral {x : Binary32} (finite : x.isFinite = true)
    (unsigned : x.isNegative = false) (ends : EndsRun after) :
    next ⟨(floatLiteral x).toList ++ after, line⟩ =
      ⟨.ok ⟨.float (floatLiteral x) x, line⟩, ⟨after, line⟩⟩ := by
  -- The literal has its own point with digits on both sides, so a further point is left alone.
  obtain ⟨whole, fraction, literal, nonempty, digitsWhole, digitsFraction, reads, -⟩ :=
    floatLiteral_parts finite unsigned
  rw [literal, String.toList_ofList]
  exact next_float nonempty digitsWhole digitsFraction reads ends

end Shading.Glsl
