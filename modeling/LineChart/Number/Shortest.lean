import LineChart.Number.Nearest

namespace LineChart.Number

/-- The decimal `0.d₁d₂… * 10 ^ point`. -/
structure Decimal where
  digits : List Char
  point : Int
deriving DecidableEq

/-- `d * 10 ^ e` for `d ≠ 0`, with no zero at the end of its digits. -/
def Decimal.ofScaled (d : Nat) (e : Int) : Decimal :=
  let ds := Nat.toDigits 10 d
  ⟨(ds.reverse.dropWhile (· == '0')).reverse, ds.length + e⟩

/-- The multiple of `10 ^ (e + cut)` next to `c * 10 ^ e` that reads back as rank `r`: of two such
neighbours the nearer, and the upper one of two equally near. -/
def neighbour? (r c : Nat) (e : Int) (cut : Nat) : Option Nat :=
  let unit := Nat.pow 10 cut
  let low := c / unit
  let readsBack := fun d => rankOfDecimal d (e + cut) == r
  let order := if 2 * (c % unit) < unit then [low, low + 1] else [low + 1, low]
  order.find? readsBack

/-- Tries ever finer grids, from multiples of `10 ^ (e + cut)` on; the last grid holds the number
itself. -/
def coarsest (r c : Nat) (e : Int) : Nat → Nat × Int
  | 0 => (c, e)
  | cut + 1 =>
    match neighbour? r c e (cut + 1) with
    | some d => (d, e + (cut + 1 : Nat))
    | none => coarsest r c e cut

/-- The fewest digits that read back as the magnitude of rank `r`, nonzero and finite. -/
def shortest (r : Nat) : Decimal :=
  let (c, e) := exactDecimal r
  let (d, e') := coarsest r c e ((Nat.toDigits 10 c).length - 1)
  Decimal.ofScaled d e'

end LineChart.Number
