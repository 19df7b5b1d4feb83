import Shading.Json.Parser
import Shading.Json.Printer

/-! Strings and natural numbers are read as what they were written for. -/

namespace Shading.Json

variable {rest : List Char}

/-- Something that stands in front of more units is read as the unit that it was written for. -/
def UnitReads (chars : List Char) (unit : TextUnit) : Prop :=
  ∀ rest, units (chars ++ rest) = (units rest).map fun (more, rest) => (unit :: more, rest)

/-- A hexadecimal digit has its own value. -/
theorem hexDigit?_digitChar : ∀ d < 16, hexDigit? (Nat.digitChar d) = some d := by
  -- There are only sixteen of them.
  decide

/-- A control character has four hexadecimal digits, of which the first two are zeros. -/
theorem fourDigits_control :
    ∀ n < 0x20, fourDigits n = ['0', '0', Nat.digitChar (n / 16), Nat.digitChar (n % 16)] := by
  -- There are only thirty-two of them.
  decide

/-- Control characters are read back from their code points. -/
theorem control_reads {c : Char} (control : c.toNat < 0x20) :
    UnitReads ('\\' :: 'u' :: fourDigits c.toNat) (.scalar c) := by
  intro rest
  -- Each digit is read back as the number that it was written for.
  have high := hexDigit?_digitChar (c.toNat / 16) (by omega)
  have low := hexDigit?_digitChar (c.toNat % 16) (by omega)
  have zero : hexDigit? '0' = some 0 := rfl
  -- The first two of the four digits are zeros, and the others make up the code point.
  have whole : ((0 * 16 + 0) * 16 + c.toNat / 16) * 16 + c.toNat % 16 = c.toNat := by omega
  have code : codeUnit c.toNat = .scalar c := by
    rw [codeUnit, if_neg (by omega), Char.ofNat_toNat]
  rw [fourDigits_control c.toNat control]
  simp only [List.cons_append, List.nil_append, units, zero, high, low, Option.bind_eq_bind,
    Option.bind_some, whole, code]
  cases units rest <;> rfl

/-- A letter after a backslash is read as the unit that it is short for. -/
theorem short_reads {letter : Char} {unit : TextUnit} (short : shortEscape? letter = some unit)
    (noCode : letter ≠ 'u') : UnitReads ['\\', letter] unit := by
  intro rest
  -- A backslash with four digits behind it is a case of its own, which starts with `u`.
  have one : units ('\\' :: letter :: rest) = (do
      let unit ← shortEscape? letter
      let (more, rest) ← units rest
      return (unit :: more, rest)) := by
    rw [units]
    exact fun _ _ _ _ _ code _ => noCode code
  rw [List.cons_append, List.cons_append, List.nil_append, one, short]
  cases units rest <;> rfl

/-- A character that needs no escape stands for itself. -/
theorem plain_reads {c : Char} (noQuote : c ≠ '"') (noBackslash : c ≠ '\\')
    (printable : ¬c.toNat < 0x20) : UnitReads [c] (.scalar c) := by
  -- The three patterns in front of the last one all need a quotation mark or a backslash.
  intro rest
  have unescaped : ¬(c.toNat < 0x20 ∨ c = '\\') := by simp [printable, noBackslash]
  rw [List.cons_append, List.nil_append, units, if_neg unescaped]
  · cases units rest <;> rfl
  · exact noQuote
  · exact fun _ _ _ _ _ backslash _ => noBackslash backslash
  · exact fun _ _ backslash _ => noBackslash backslash

/-- Every character is read back from the way it is written in a string. -/
theorem escapeUnit_reads (c : Char) : UnitReads (escapeUnit (.scalar c)) (.scalar c) := by
  simp only [escapeUnit]
  -- Seven characters have an escape of their own.
  iterate 7
    split
    · subst c
      exact short_reads rfl (by decide)
  -- All others are control characters or stand for themselves.
  split
  · rename_i control
    exact control_reads control
  · rename_i noQuote noBackslash _ _ _ _ _ printable
    exact plain_reads noQuote noBackslash printable

/-- A string is read back up to its closing quote. -/
theorem units_unitsOf (text : String) :
    units ((unitsOf text).flatMap escapeUnit ++ '"' :: rest) = some (unitsOf text, rest) := by
  -- One unit after the other, each with the rest of the string behind it.
  unfold unitsOf
  induction text.toList with
  | nil => rfl
  | cons c cs ih =>
    rw [List.map_cons, List.flatMap_cons, List.append_assoc, escapeUnit_reads c, ih]
    rfl

/-- What stands behind a number does not continue it. -/
def EndsNumber (rest : List Char) : Prop :=
  ∀ c ∈ rest.head?, c.isDigit = false ∧ c ≠ '.' ∧ c ≠ 'e' ∧ c ≠ 'E'

/-- Only zero is written with a leading zero. -/
theorem eq_zero_of_head?_toDigits {n : Nat} (zero : (Nat.toDigits 10 n).head? = some '0') :
    n = 0 := by
  induction n using Nat.strongRecOn with
  | ind n ih =>
    by_cases single : n < 10
    · have digits : ∀ d < 10, [Nat.digitChar d].head? = some '0' → d = 0 := by decide
      rw [Nat.toDigits_of_lt_base single] at zero
      exact digits n single zero
    · -- The first digit is that of the number without its last one.
      have front : (Nat.toDigits 10 n).head? = (Nat.toDigits 10 (n / 10)).head? := by
        rw [Nat.toDigits_of_base_le (by decide) (by omega), List.head?_append,
          List.head?_eq_some_head Nat.toDigits_ne_nil, Option.some_or]
      rw [front] at zero
      -- The number without its last digit would be zero, and there are two digits.
      have := ih (n / 10) (by omega) zero
      omega

/-- A run of digits is read up to what is not a digit. -/
theorem wholeDigits_toDigits (n : Nat) (ends : EndsNumber rest) :
    wholeDigits (Nat.toDigits 10 n ++ rest) = some (Nat.toDigits 10 n, rest) := by
  have isDigit : ∀ c ∈ Nat.toDigits 10 n, c.isDigit = true := fun _ member =>
    Nat.isDigit_of_mem_toDigits (by decide) (by decide) member
  -- What follows is no digit, so that the run ends where it was written to end.
  have stops : rest.takeWhile Char.isDigit = [] ∧ rest.dropWhile Char.isDigit = rest := by
    cases rest with
    | nil => exact ⟨rfl, rfl⟩
    | cons c rest => simp [(ends c rfl).1]
  have read : digits (Nat.toDigits 10 n ++ rest) = some (Nat.toDigits 10 n, rest) := by
    rw [digits, List.takeWhile_append_of_pos isDigit, List.dropWhile_append_of_pos isDigit,
      stops.1, stops.2]
    simp [Nat.toDigits_ne_nil]
  -- A zero in front of other digits is refused, but a number is never written with one.
  have noZero : ¬((Nat.toDigits 10 n).head? = some '0' ∧ (Nat.toDigits 10 n).length ≠ 1) := by
    rintro ⟨zero, long⟩
    rw [eq_zero_of_head?_toDigits zero] at long
    exact long rfl
  rw [wholeDigits, read]
  simp only [Option.bind_eq_bind, Option.bind_some, if_neg noZero]
  rfl

/-- Nothing of what ends a number is read as a fraction or as an exponent. -/
theorem noFraction (ends : EndsNumber rest) :
    fraction rest = some ([], rest) ∧ exponent rest = some ([], rest) := by
  cases rest with
  | nil => exact ⟨rfl, rfl⟩
  | cons c rest =>
    obtain ⟨-, noPoint, noSmall, noCapital⟩ := ends c rfl
    -- A fraction starts with a point, and an exponent with one of the two letters.
    constructor
    · rw [fraction.eq_def]
      split
      · rename_i point
        exact absurd (List.cons.inj point).1 noPoint
      · rfl
    · simp [exponent, noSmall, noCapital]

/-- A natural number is read back from its digits. -/
theorem unsigned_toDigits (n : Nat) (ends : EndsNumber rest) :
    unsigned [] (Nat.toDigits 10 n ++ rest) = some (.natural n, rest) := by
  -- Neither a fraction nor a power follows, as what ends a number starts neither of them.
  obtain ⟨noPart, noPower⟩ := noFraction ends
  rw [unsigned, wholeDigits_toDigits n ends]
  simp [noPart, noPower, Nat.ofDigitChars_ten_toDigits]

end Shading.Json
