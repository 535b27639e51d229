import LineChart.Number.Scalar

namespace LineChart

structure ValueAxis (α : Type) where
  label : String
  min : α
  max : α
deriving DecidableEq

/-- A line chart: its categories run along the horizontal axis, its series is plotted against the
value axis. -/
structure Chart (α : Type) where
  title : String
  categories : List String
  valueAxis : ValueAxis α
  series : List α
deriving DecidableEq

variable {α : Type} [Scalar α]

def ValueAxis.span (axis : ValueAxis α) : α := axis.max - axis.min

/-- The axis of a chart that gives none. -/
def ValueAxis.percent : ValueAxis α := ⟨"", Scalar.ofNat 0, Scalar.ofNat 100⟩

def Chart.defaultTitle : String := "Untitled Chart"

def Chart.empty : Chart α := ⟨Chart.defaultTitle, [], .percent, []⟩

end LineChart
