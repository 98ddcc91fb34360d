/-!
The value of a decimal number in a JSON text. Digits are gathered into a natural number of 64 bits
and a power of ten; what does not fit into the 64 bits is left out. The double is then found by one
multiplication or division by a power of ten, so it is not always the one nearest to the decimal.
-/

namespace Kql.Json

def digit (c : Char) : Nat := c.toNat - '0'.toNat

/-- The parts of a number as they are written: the digits before the point, those after it, and a
signed exponent. -/
structure Numeral where
  negative : Bool
  whole : List Char
  fraction : Option (List Char)
  exponent : Option (Bool × List Char)

/-- Takes digits into `n` as long as the result fits into 64 bits, and returns it with the digits
that are left. -/
def gather (n : Nat) : List Char → Nat × List Char
  | [] => (n, [])
  | c :: rest =>
    let more := n * 10 + digit c
    if more < UInt64.size then gather more rest else (n, c :: rest)

/-- The natural number and the power of ten that stand for the digits. A digit before the point that
does not fit counts as a factor ten, one after the point not at all. -/
def Numeral.coefficient (t : Numeral) : Nat × Int :=
  let (n, left) := gather 0 t.whole
  let fraction := t.fraction.getD []
  let (n, right) := gather n fraction
  (n, left.length - (fraction.length - right.length : Nat))

/-- The greatest exponent that is read as a number, the greatest that 32 bits hold with a sign. -/
def exponentBound : Nat := 0x7FFFFFFF

/-- `x * 10 ^ e`, or nothing when that is too large. A small result is reached in steps of
`10 ^ (-308)`, until it is zero. -/
def scale (x : Float) (e : Int) : Option Float :=
  if e.natAbs ≤ 308 then
    if 0 ≤ e then
      let y := x * Float.ofScientific 1 false e.natAbs
      if y.isInf then none else some y
    else some (x / Float.ofScientific 1 false e.natAbs)
  else if x == 0 then some x
  else if 0 ≤ e then none
  else scale (x / Float.ofScientific 1 false 308) (e + 308)
termination_by e.natAbs

/-- The double that the numeral stands for, or nothing when it is too large. -/
def Numeral.real? (t : Numeral) : Option Float :=
  let (n, power) := t.coefficient
  let magnitude? := match t.exponent with
    | none => scale (Float.ofNat n) power
    | some (down, digits) =>
      let e := Nat.ofDigitChars 10 digits 0
      if e ≤ exponentBound then scale (Float.ofNat n) (if down then power - e else power + e)
      else if n = 0 || down then some 0
      else none
  magnitude?.map fun x => if t.negative then -x else x

/-- The integer that the numeral stands for, if it is written as one and 64 bits hold it. Minus zero
is not among them. -/
def Numeral.integer? (t : Numeral) : Option Int :=
  if t.fraction.isSome || t.exponent.isSome then none
  else
    let n := Nat.ofDigitChars 10 t.whole 0
    if t.negative then if 0 < n && n ≤ 0x8000000000000000 then some (-n) else none
    else if n < UInt64.size then some n else none

end Kql.Json
