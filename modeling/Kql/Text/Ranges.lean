/-!
Sets of characters given by ranges of code points.
-/

namespace Kql.Text

/-- Pairs of a first and a last code point. -/
abbrev Ranges := List (Nat × Nat)

/-- The code point of `c` lies in one of the ranges, ends included. -/
def Ranges.holds (ranges : Ranges) (c : Char) : Bool :=
  ranges.any fun (first, last) => first ≤ c.toNat && c.toNat ≤ last

end Kql.Text
