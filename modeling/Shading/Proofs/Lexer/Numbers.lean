import Shading.Proofs.Binary32.Nearest
import Shading.Proofs.Lexer.Spelling

/-! Numbers in a source are read exactly or as the nearest float, or they are refused. -/

namespace Shading

namespace Decimal

/-- The number that a run of decimal digits denotes: every digit counts for its place. -/
def placeValue : List Char → Nat
  | [] => 0
  | c :: rest => (c.toNat - '0'.toNat) * 10 ^ rest.length + placeValue rest

/-- The exact value of the number written with these digits before and after its point. -/
def exactValue (whole fraction : List Char) : ℚ :=
  placeValue whole + placeValue fraction / 10 ^ fraction.length

/-- Digits read from the front give the number that they denote. -/
theorem ofDigits_eq_placeValue (digits : List Char) : ofDigits digits = placeValue digits := by
  induction digits with
  | nil => rfl
  | cons c rest ih =>
    -- What the first digit gives is multiplied by ten for every digit behind it.
    have first : ofDigits (c :: rest) = Nat.ofDigitChars 10 rest (c.toNat - '0'.toNat) := by
      simp [ofDigits, Nat.ofDigitChars_cons]
    rw [first, Nat.ofDigitChars_eq_ofDigitChars_zero, placeValue, ← ih, Nat.mul_comm]
    rfl

/-- The first of two runs of digits stands before all places of the second. -/
theorem placeValue_append (digits more : List Char) :
    placeValue (digits ++ more) = placeValue digits * 10 ^ more.length + placeValue more := by
  -- The places of the second run move those of the first by its length.
  induction digits with
  | nil => simp [placeValue]
  | cons c rest ih =>
    simp only [List.cons_append, placeValue, ih, List.length_append, Nat.pow_add]
    ring

/-- As a fraction, digits around a point are their exact value. -/
theorem ofParts_eq_exactValue (whole fraction : List Char) :
    ((ofParts whole fraction).numerator / (ofParts whole fraction).denominator : ℚ) =
      exactValue whole fraction := by
  -- The power of ten is in the denominator, with as many zeros as the fraction has digits.
  have tens : ∀ n, tenTo n = 10 ^ n := fun _ => rfl
  have noPower : (-(fraction.length : Int)).toNat = 0 := by omega
  have places : (- -(fraction.length : Int)).toNat = fraction.length := by omega
  simp only [numerator, denominator, ofParts, noPower, places, tens, ofDigits_eq_placeValue,
    placeValue_append, exactValue]
  push_cast
  field_simp

end Decimal

namespace Cursor

/--
A number is read exactly or as the nearest float, or it is refused as a whole.

Digits without a point are the integer that they denote, unless it is beyond the largest one.
Digits around a point are the float nearest to their exact value, of two as near the even one.
They are refused from the middle of the largest float and the next power of two on.
-/
theorem next_number {digits : List Char} (nonempty : digits ≠ [])
    (all : ∀ c ∈ digits, c.isDigit = true) (line : Nat) :
    (∀ after : List Char, (∀ c ∈ after.head?, c.isDigit = false ∧ c ≠ '.') →
      next ⟨digits ++ after, line⟩ =
        ⟨if Decimal.placeValue digits ≤ 2147483647
          then .ok ⟨.integer (String.ofList digits) (Decimal.placeValue digits), line⟩
          else .error ⟨line, .invalidNumber (String.ofList digits)⟩, ⟨after, line⟩⟩) ∧
    ∀ fraction after : List Char, (∀ c ∈ fraction, c.isDigit = true) →
      (∀ c ∈ after.head?, c.isDigit = false) →
      let text := String.ofList (digits ++ '.' :: fraction)
      let exact := Decimal.exactValue digits fraction
      let reading := next ⟨digits ++ '.' :: fraction ++ after, line⟩
      reading.next = ⟨after, line⟩ ∧
        (2 ^ 128 - 2 ^ 103 ≤ exact ↔ reading.result = .error ⟨line, .invalidNumber text⟩) ∧
        (exact < 2 ^ 128 - 2 ^ 103 ↔ ∃ x : Binary32, x.IsNearest exact ∧
          reading.result = .ok ⟨.float text x, line⟩) := by
  -- Where the first digit stands, a number is read.
  have here : ∀ rest, next ⟨digits ++ rest, line⟩ = number ⟨digits ++ rest, line⟩ := by
    obtain ⟨c, others, rfl⟩ := List.exists_cons_of_ne_nil nonempty
    exact fun rest => next_eq_number (all c (by simp))
  constructor
  · -- Without a point the digits are an integer.
    intro after ends
    have noPoint : '.' ∉ after.head? := fun point => (ends _ point).2 rfl
    rw [here, number_integer all (fun c member => (ends c member).1) noPoint,
      Decimal.ofDigits_eq_placeValue]
    rfl
  · intro fraction after allFraction ends
    dsimp only
    rw [List.append_assoc, here, ← List.append_assoc, number_float all allFraction ends]
    -- The bound tells whether a float is read at all, and then it is the nearest one.
    have refused := Binary32.ofDecimal?_eq_none_iff (d := .ofParts digits fraction)
    rw [Decimal.ofParts_eq_exactValue] at refused
    cases read : Binary32.ofDecimal? (.ofParts digits fraction) with
    | none =>
      have large := refused.mp read
      simp [large]
    | some x =>
      have small : ¬ (2 ^ 128 - 2 ^ 103 : ℚ) ≤ Decimal.exactValue digits fraction := by
        rw [← refused, read]
        simp
      have nearest := Binary32.isNearest_of_ofDecimal? read
      rw [Decimal.ofParts_eq_exactValue] at nearest
      simp [small, not_le.mp small, nearest]

/-- In the middle of two floats, `16777217.0` is the even one of them and not refused. -/
theorem next_number_tie :
    let digits := ['1', '6', '7', '7', '7', '2', '1', '7']
    digits ≠ [] ∧ (∀ c ∈ digits, c.isDigit = true) ∧
      ∃ x : Binary32, x.IsNearest 16777217 ∧
        (next ⟨digits ++ '.' :: ['0'] ++ [';'], 3⟩).result =
          .ok ⟨.float (String.ofList (digits ++ '.' :: ['0'])) x, 3⟩ := by
  -- The digits are given in characters, as the lexer sees them.
  have all : ∀ c ∈ ['1', '6', '7', '7', '7', '2', '1', '7'], c.isDigit = true := by simp [Char.isDigit]
  have exact : Decimal.exactValue ['1', '6', '7', '7', '7', '2', '1', '7'] ['0'] = 16777217 := by
    have whole : Decimal.placeValue ['1', '6', '7', '7', '7', '2', '1', '7'] = 16777217 := by decide
    have none : Decimal.placeValue ['0'] = 0 := by decide
    simp [Decimal.exactValue, whole, none]
  refine ⟨by decide, all, ?_⟩
  have reads := ((next_number (by decide) all 3).2 ['0'] [';'] (by simp [Char.isDigit])
    (by simp [Char.isDigit])).2.2
  rw [exact] at reads
  exact reads.mp (by norm_num)

end Cursor

end Shading
