/-!
The shortest decimal that identifies a binary floating-point value. Every finite value stands for
the reals that are nearer to it than to its neighbours. Of the decimals among those reals the ones
with the fewest digits are wanted, and of these the one nearest to the value. All comparisons are
made on natural numbers over a common denominator.
-/

namespace Kql.Decimal

/-- Where a value goes that lies half way between two candidates. -/
inductive Tie where
  | toEven
  | up
deriving DecidableEq

/-- The reals that round to one positive value: those from `low / denominator` to
`high / denominator`, with the ends if `closed`. -/
structure Cell where
  low : Nat
  value : Nat
  high : Nat
  denominator : Nat
  closed : Bool

/-- The cell of `m * 2 ^ q`. Its ends are half way to the neighbouring values, and the one below is
nearer when `narrow`. A real half way between two values goes to the one with an even `m`. -/
def Cell.ofScaled (m : Nat) (q : Int) (narrow : Bool) : Cell where
  low := (4 * m - if narrow then 1 else 2) * Nat.pow 2 q.toNat
  value := 4 * m * Nat.pow 2 q.toNat
  high := (4 * m + 2) * Nat.pow 2 q.toNat
  denominator := 4 * Nat.pow 2 (-q).toNat
  closed := m % 2 == 0

/-- The cell of the magnitude that the bits of a finite double hold. -/
def Cell.ofBits (bits : UInt64) : Cell :=
  let biased := ((bits >>> 52) &&& 0x7FF).toNat
  let fraction := (bits &&& 0xFFFFFFFFFFFFF).toNat
  if biased = 0 then ofScaled fraction (-1074) false
  else ofScaled (0x10000000000000 + fraction) (biased - 1075) (fraction == 0 && 1 < biased)

/-- The decimal `coefficient * 10 ^ power`. -/
structure Scaled where
  coefficient : Nat
  power : Int
deriving DecidableEq

/-- Three-way comparison of a decimal with `n / denominator`. -/
def Scaled.compareTo (d : Scaled) (n denominator : Nat) : Ordering :=
  compare (d.coefficient * denominator * Nat.pow 10 d.power.toNat) (n * Nat.pow 10 (-d.power).toNat)

/-- A reader that rounds to nearest takes the decimal for the value of this cell. -/
def Cell.holds (x : Cell) (d : Scaled) : Bool :=
  match d.compareTo x.low x.denominator, d.compareTo x.high x.denominator with
  | .gt, .lt => true
  | .eq, .lt | .gt, .eq | .eq, .eq => x.closed
  | _, _ => false

/-- The least `k` for which a positive value is below `10 ^ k`. -/
def Cell.magnitude (x : Cell) : Int :=
  if x.denominator ≤ x.value then (x.value / x.denominator).repr.length
  else
    -- `10 ^ (j - 1) ≤ 1 / value < 10 ^ j`
    let j := (x.denominator / x.value).repr.length
    if x.value * Nat.pow 10 (j - 1) = x.denominator then 2 - j else 1 - j

/-- The value is nearer to the grid point below it than to the one above, or half way and `tie`
decides for the one below. -/
def Cell.prefersBelow (x : Cell) (tie : Tie) (below : Scaled) : Bool :=
  let middle : Scaled := ⟨2 * below.coefficient + 1, below.power⟩
  match middle.compareTo (2 * x.value) x.denominator, tie with
  | .gt, _ => true
  | .lt, _ => false
  | .eq, .toEven => below.coefficient % 2 == 0
  | .eq, .up => false

/-- The best decimal of the cell on the grid of multiples of `10 ^ power`. Only the two grid points
around the value can be best. -/
def Cell.onGrid? (x : Cell) (tie : Tie) (power : Int) : Option Scaled :=
  let c := x.value * Nat.pow 10 (-power).toNat / (x.denominator * Nat.pow 10 power.toNat)
  let below : Scaled := ⟨c, power⟩
  let above : Scaled := ⟨c + 1, power⟩
  match x.holds below, x.holds above with
  | true, true => some (if x.prefersBelow tie below then below else above)
  | true, false => some below
  | false, true => some above
  | false, false => none

/-- The value itself, `value / denominator`, as a decimal. Denominators are powers of two. -/
def Cell.exact (x : Cell) : Scaled :=
  let places := x.denominator.log2
  ⟨x.value * Nat.pow 5 places, -places⟩

/-- The shortest decimal of a cell: the first hit on grids of one, two, up to seventeen digits. -/
def Cell.shortest (x : Cell) (tie : Tie) : Scaled :=
  ((List.range 17).findSome? fun n : Nat => x.onGrid? tie (x.magnitude - 1 - n)).getD x.exact

end Kql.Decimal
