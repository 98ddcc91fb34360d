import Kql.Decimal.Shortest

/-!
How the digits of a floating-point value are laid out. The decisions of an output format are the
fields of one `Layout`; each format that writes such values defines its own.
-/

namespace Kql.Decimal

structure Layout where
  /-- The least exponent of the leading digit that is written without an exponent. -/
  plainFrom : Int
  /-- The greatest such exponent. -/
  plainTo : Int
  /-- The sign of a positive exponent is written. -/
  plusSign : Bool
  /-- Which of two equally near shortest decimals is taken. -/
  tie : Tie

/-- The decimal digits of a coefficient without the zeros at its end. -/
def significantDigits (n : Nat) : List Char :=
  ((Nat.toDigits 10 n).reverse.dropWhile (· == '0')).reverse

/-- Digits whose leading one stands for `10 ^ e`, with a point and at least one digit on each side
of it. -/
def plain (digits : List Char) (e : Int) : String :=
  if e < 0 then
    "0." ++ String.ofList (List.replicate (-e - 1).toNat '0' ++ digits)
  else
    let whole := digits.take (e + 1).toNat
    let fraction := digits.drop (e + 1).toNat
    String.ofList (whole ++ List.replicate ((e + 1).toNat - whole.length) '0') ++ "."
      ++ (if fraction.isEmpty then "0" else String.ofList fraction)

/-- Digits with a point after the first one, if more follow, and the exponent `e`. -/
def Layout.scientific (l : Layout) (digits : List Char) (e : Int) : String :=
  String.ofList (digits.take 1)
    ++ (if digits.drop 1 = [] then "" else "." ++ String.ofList (digits.drop 1))
    ++ (if l.plusSign && 0 ≤ e then "e+" else "e") ++ e.repr

def Layout.scaled (l : Layout) (d : Scaled) : String :=
  let digits := significantDigits d.coefficient
  let e := d.power + (Nat.toDigits 10 d.coefficient).length - 1
  if l.plainFrom ≤ e ∧ e ≤ l.plainTo then plain digits e else l.scientific digits e

/-- The text of a double: its sign, which zero has too, and its shortest digits. A value that is not
a number has no sign. -/
def Layout.text (l : Layout) (x : Float) : String :=
  let bits := x.toBits
  let magnitude := bits &&& 0x7FFFFFFFFFFFFFFF
  let sign := if bits = magnitude then "" else "-"
  if 0x7FF0000000000000 < magnitude then "NaN"
  else if magnitude = 0x7FF0000000000000 then sign ++ "inf"
  else if magnitude = 0 then sign ++ "0.0"
  else sign ++ l.scaled ((Cell.ofBits bits).shortest l.tie)

end Kql.Decimal
