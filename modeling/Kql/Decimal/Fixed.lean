/-!
Decimals with a fixed number of places. The number of places belongs to the value: one with two
places is written with two places, zeros included.
-/

namespace Kql.Decimal

/-- The number `unscaled * 10 ^ (-places)`. -/
structure Fixed where
  unscaled : Int
  places : Nat
deriving DecidableEq

/-- At least one digit, then a point and `places` digits if there are any. -/
def Fixed.text (d : Fixed) : String :=
  let digits := Nat.toDigits 10 d.unscaled.natAbs
  let padded := List.replicate (d.places + 1 - digits.length) '0' ++ digits
  let split := padded.length - d.places
  (if d.unscaled < 0 then "-" else "") ++ String.ofList (padded.take split)
    ++ (if d.places = 0 then "" else "." ++ String.ofList (padded.drop split))

end Kql.Decimal
