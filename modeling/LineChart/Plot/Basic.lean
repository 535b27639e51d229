import LineChart.Plot.Canvas

namespace LineChart

structure Point (α : Type) where
  x : α
  y : α
deriving DecidableEq

/-- Where the values of a series stand on a canvas. -/
structure Plot (α : Type) where
  canvas : Canvas α
  points : List (Point α)
deriving DecidableEq

variable {α : Type} [Scalar α]

/-- Places the series at even distances from the left; values beyond the last category go on at the
same distance. -/
def Chart.plot (chart : Chart α) (canvas : Canvas α) : Plot α where
  canvas := canvas
  points :=
    let left := canvas.padding + canvas.xOffset
    let step := canvas.spacing chart.categories.length
    chart.series.mapIdx fun i v => ⟨left + Scalar.ofNat i * step, canvas.yOf chart.valueAxis v⟩

end LineChart
