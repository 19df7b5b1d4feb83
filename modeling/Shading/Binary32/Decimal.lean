/-! Decimal numbers and their digits. -/

namespace Shading

/-- The nonnegative number `coefficient * 10 ^ exponent`. -/
structure Decimal where
  coefficient : Nat
  exponent : Int
deriving DecidableEq

namespace Decimal

/-- A power of ten. -/
def tenTo (n : Nat) : Nat :=
  Nat.pow 10 n

/-- The number that a run of decimal digits denotes. -/
def ofDigits (digits : List Char) : Nat :=
  Nat.ofDigitChars 10 digits 0

/-- The number written with these digits before and after its point. -/
def ofParts (whole fraction : List Char) : Decimal :=
  ⟨ofDigits (whole ++ fraction), -fraction.length⟩

/-- The numerator of the number as a fraction. -/
def numerator (d : Decimal) : Nat :=
  d.coefficient * tenTo d.exponent.toNat

/-- The denominator of the number as a fraction. -/
def denominator (d : Decimal) : Nat :=
  tenTo (-d.exponent).toNat

/-- The characters of the number, without an exponent and without needless zeros at its front. -/
def plain (d : Decimal) : List Char :=
  let digits := Nat.toDigits 10 d.coefficient
  if 0 ≤ d.exponent then
    -- Zeros fill the places between the digits and the point.
    digits ++ List.replicate d.exponent.toNat '0'
  else
    let places := (-d.exponent).toNat
    -- At least one digit stands before the point.
    let padded := List.replicate (places + 1 - digits.length) '0' ++ digits
    padded.take (padded.length - places) ++ '.' :: padded.drop (padded.length - places)

end Decimal

end Shading
