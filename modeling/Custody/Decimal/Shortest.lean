/-
  Custody.Decimal.Shortest — the decimal with the fewest digits that a reader takes back to the
  same binary value.

  A binary value owns the reals that round to it: an interval around it. The shortest decimal is
  looked for on ever finer grids (the multiples of 10^k, k falling). On the first grid that has a
  point in the interval, one of the value's two neighbours on that grid is such a point; the nearer
  one is taken, and of two equally near ones the larger.
-/
namespace Custody.Decimal

/-- A positive value and the ends of the interval that rounds to it, over one denominator. -/
structure Cell where
  low : Nat
  value : Nat
  high : Nat
  den : Nat
  /-- Whether the ends themselves round to the value. -/
  closed : Bool

/-- The cell measured in steps of `10^k`: the grid's points are the multiples of `den`. -/
def Cell.scale (c : Cell) (k : Int) : Cell :=
  if 0 ≤ k then { c with den := c.den * Nat.pow 10 k.toNat }
  else
    let m := Nat.pow 10 (-k).toNat
    { c with low := c.low * m, value := c.value * m, high := c.high * m }

/-- Whether the `d`-th point of the unit grid rounds to the value. -/
def Cell.holds (c : Cell) (d : Nat) : Bool :=
  if c.closed then c.low ≤ d * c.den && d * c.den ≤ c.high
  else c.low < d * c.den && d * c.den < c.high

/-- The point of the unit grid to write the value with, if there is one. -/
def Cell.neighbour? (c : Cell) : Option Nat :=
  let d := c.value / c.den
  match c.holds d, c.holds (d + 1) with
  | true, true => some (if 2 * (c.value % c.den) < c.den then d else d + 1)
  | true, false => some d
  | false, true => some (d + 1)
  | false, false => none

/-- The first hit on the grids `10^k`, `10^(k-1)`, …, of which `n + 1` are tried. -/
def Cell.search (c : Cell) (k : Int) : Nat → Option (Nat × Int)
  | 0 => ((c.scale k).neighbour?).map (·, k)
  | n + 1 =>
    match (c.scale k).neighbour? with
    | some d => some (d, k)
    | none => c.search (k - 1) n

/-- Digits `d` and exponent `k` of the shortest decimal `d · 10^k`. The first grid is coarser than
    the value, the last one finer than the cell. -/
def Cell.shortest (c : Cell) : Nat × Int :=
  let top := (Nat.toDigits 10 (c.high / c.den)).length
  (c.search top (top + c.den.log2 + 1)).getD (c.value / c.den, 0)

end Custody.Decimal
