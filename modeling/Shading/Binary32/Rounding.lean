import Shading.Binary32.Basic
import Shading.Binary32.Decimal

/-! Reading a decimal gives the nearest single-precision number, the even one of two as near. -/

namespace Shading

/-- The integer nearest to a quotient, the even one of two as near. -/
def nearestEven (num den : Nat) : Nat :=
  let whole := num / den
  let twice := 2 * (num % den)
  if twice < den || (twice == den && whole % 2 == 0) then whole else whole + 1

namespace Binary32

/-- The magnitude nearest to a quotient; infinity and above stand for overflow. -/
def nearestMagnitude (num den : Nat) : Nat :=
  -- In units of the smallest positive number, the nearest number keeps the first 24 binary digits.
  let scaled := num * unitsPerOne
  let dropped := (scaled / den).log2 - 23
  -- Rounding up past 24 digits carries into the exponent, where it is worth one step.
  dropped * exponentStep + nearestEven scaled (den <<< dropped)

/-- The magnitude nearest to a decimal. -/
def magnitudeOf (d : Decimal) : Nat :=
  nearestMagnitude d.numerator d.denominator

/-- The finite number nearest to a decimal, none when it is too large. -/
def ofDecimal? (d : Decimal) : Option Binary32 :=
  if magnitudeOf d < infinity then some ⟨UInt32.ofNat (magnitudeOf d)⟩ else none

end Binary32

end Shading
