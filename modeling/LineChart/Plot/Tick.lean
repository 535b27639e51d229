import LineChart.Plot.Canvas

namespace LineChart

/-- A labelled height on the value axis. -/
structure Tick (α : Type) where
  index : Nat
  value : α
  y : α
deriving DecidableEq

/-- The value axis is divided into this many steps. -/
def tickSteps : Nat := 5

variable {α : Type} [Scalar α]

/-- The whole number next to the `i`-th of the even divisions of the axis. -/
def ValueAxis.tickValue (axis : ValueAxis α) (i : Nat) : α :=
  roundHalfUp (axis.min + axis.span * (Scalar.ofNat i / Scalar.ofNat tickSteps))

/-- The ticks from the bottom up, each drawn at the height of its rounded value. -/
def ValueAxis.ticks (axis : ValueAxis α) (canvas : Canvas α) : List (Tick α) :=
  (List.range (tickSteps + 1)).map fun i =>
    ⟨i, axis.tickValue i, canvas.yOf axis (axis.tickValue i)⟩

end LineChart
