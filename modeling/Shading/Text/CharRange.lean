/-! Classes of characters are tables of code point ranges. -/

namespace Shading.Text

/-- A run of code points, both ends included. -/
structure CharRange where
  first : Nat
  last : Nat

/-- The character lies between the ends of the range. -/
def CharRange.holds (range : CharRange) (c : Char) : Bool :=
  range.first ≤ c.toNat && c.toNat ≤ range.last

/-- The character lies in one of the ranges of a table. -/
def inTable (table : List CharRange) (c : Char) : Bool :=
  table.any (·.holds c)

end Shading.Text
