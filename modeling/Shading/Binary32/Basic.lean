/-! Single-precision floating-point numbers, given by their encodings. -/

namespace Shading

/-- A single-precision floating-point number in its 32-bit interchange encoding. -/
structure Binary32 where
  bits : UInt32
deriving DecidableEq, Inhabited

namespace Binary32

/-- The weight of the sign, the first bit of an encoding. -/
def signWeight : Nat :=
  1 <<< 31

/-- The weight of one step of the exponent, above the 23 bits of the fraction. -/
def exponentStep : Nat :=
  1 <<< 23

/-- The number one, counted in the smallest positive number `2 ^ -149`. -/
def unitsPerOne : Nat :=
  1 <<< 149

/-- The sign of an encoding is set. -/
def isNegative (x : Binary32) : Bool :=
  signWeight ≤ x.bits.toNat

/-- The encoding without its sign, which orders the magnitudes of numbers. -/
def magnitude (x : Binary32) : Nat :=
  x.bits.toNat % signWeight

/-- The magnitude that stands for infinity: a full exponent and an empty fraction. -/
def infinity : Nat :=
  255 * exponentStep

/-- Finite numbers lie below infinity. -/
def isFinite (x : Binary32) : Bool :=
  x.magnitude < infinity

/-- Encodings above infinity stand for no number. -/
def isNaN (x : Binary32) : Bool :=
  infinity < x.magnitude

/-- The size of a finite number, counted in the smallest positive number `2 ^ -149`. -/
def units (x : Binary32) : Nat :=
  let exponent := x.magnitude / exponentStep
  let fraction := x.magnitude % exponentStep
  -- An empty exponent marks the numbers without a leading one.
  if exponent = 0 then fraction else (exponentStep + fraction) <<< (exponent - 1)

/-- A finite number without a fractional part. -/
def isIntegral (x : Binary32) : Bool :=
  x.isFinite && x.units % unitsPerOne == 0

/-- Equality of numbers: the two zeros are equal and what is no number equals nothing. -/
def sameNumber (x y : Binary32) : Bool :=
  !x.isNaN && !y.isNaN && (x == y || (x.magnitude == 0 && y.magnitude == 0))

end Binary32

end Shading
