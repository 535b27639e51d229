import LineChart.Chart.Basic

namespace LineChart

/-- The drawing area in pixels, `y` growing downwards. Padding surrounds the plot on every side, and
the first and last points keep a further distance `xOffset` from its sides. -/
structure Canvas (α : Type) where
  width : α
  height : α
  padding : α
  xOffset : α
deriving DecidableEq

namespace Canvas

variable {α : Type} [Scalar α]

def standard : Canvas α :=
  ⟨Scalar.ofNat 600, Scalar.ofNat 400, Scalar.ofNat 60, Scalar.ofNat 30⟩

def plotWidth (c : Canvas α) : α := c.width - Scalar.ofNat 2 * c.padding

def plotHeight (c : Canvas α) : α := c.height - Scalar.ofNat 2 * c.padding

/-- The width that the points spread over. -/
def innerWidth (c : Canvas α) : α := c.plotWidth - Scalar.ofNat 2 * c.xOffset

def baseline (c : Canvas α) : α := c.height - c.padding

def right (c : Canvas α) : α := c.width - c.padding

/-- The height at which a value is drawn: the least value of the axis on the baseline, the greatest
at the top of the plot. -/
def yOf (c : Canvas α) (axis : ValueAxis α) (value : α) : α :=
  c.baseline - (value - axis.min) / axis.span * c.plotHeight

/-- The distance between neighbouring points. The last of several categories stands at the right end
of the inner width. -/
def spacing (c : Canvas α) (categories : Nat) : α :=
  if 1 < categories then c.innerWidth / Scalar.ofNat (categories - 1) else c.innerWidth

end Canvas

end LineChart
