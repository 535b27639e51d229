import LineChart.Number.Nearest

namespace LineChart

/-- Numbers that charts are laid out with: binary64 when drawing, exact rationals when reasoning. -/
class Scalar (α : Type) extends Add α, Sub α, Mul α, Div α, LT α, LE α where
  ofNat : Nat → α
  floor : α → α
  decidableLT : DecidableLT α
  decidableLE : DecidableLE α

attribute [reducible, instance] Scalar.decidableLT Scalar.decidableLE

instance : Scalar Float where
  ofNat := Number.ofNat
  floor := Number.floor
  decidableLT := inferInstance
  decidableLE := inferInstance

instance : Scalar Rat where
  ofNat n := n
  floor x := x.floor
  decidableLT := inferInstance
  decidableLE := inferInstance

/-- The whole number nearest to `x`, a half going up. -/
def roundHalfUp {α : Type} [Scalar α] (x : α) : α :=
  let low := Scalar.floor x
  if Scalar.ofNat 1 / Scalar.ofNat 2 ≤ x - low then low + Scalar.ofNat 1 else low

end LineChart
