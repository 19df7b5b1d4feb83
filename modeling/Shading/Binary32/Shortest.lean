import Shading.Binary32.Rounding

/-! Printing a number takes the fewest decimal digits that read back. -/

namespace Shading.Binary32

/-- The decimal reads back with the magnitude of the number. -/
def readsBack (x : Binary32) (d : Decimal) : Bool :=
  magnitudeOf d == x.magnitude

/-- The multiple of a power of ten nearest to the number, if it reads back; the larger of two as near. -/
def onGrid? (x : Binary32) (exponent : Int) : Option Decimal :=
  -- The number is this fraction of the power of ten.
  let num := x.units * Decimal.tenTo (-exponent).toNat
  let den := unitsPerOne * Decimal.tenTo exponent.toNat
  let below : Decimal := ⟨num / den, exponent⟩
  let above : Decimal := ⟨num / den + 1, exponent⟩
  let nearBelow := 2 * (num % den) < den
  -- A neighbour that does not read back leaves the grid to the other one.
  if readsBack x below && (nearBelow || !readsBack x above) then some below
  else if readsBack x above then some above
  else none

/-- Exponents of the grids to try, the coarsest first. -/
def gridExponents : List Int :=
  -- No finite number reaches `10 ^ 39`, and every one is a multiple of `10 ^ -149`.
  (List.range 188).map fun (i : Nat) => 38 - (i : Int)

/-- The decimal with the fewest digits that reads back as the size of a finite number. -/
def shortest (x : Binary32) : Decimal :=
  if x.units = 0 then ⟨0, 0⟩
  else (gridExponents.findSome? (onGrid? x)).getD ⟨0, 0⟩

/-- The characters of a number without an exponent. -/
def plain (x : Binary32) : List Char :=
  if x.isNaN then "NaN".toList
  else
    let sign := if x.isNegative then ['-'] else []
    if x.isFinite then sign ++ x.shortest.plain else sign ++ "inf".toList

end Shading.Binary32
