import LineChart.Diagram.Cell
import LineChart.Number.Format
import LineChart.Plot.Tick

namespace LineChart

/-- Numbers that can be shown as the text of a cell. -/
class NumberText (α : Type) where
  text : α → String

instance : NumberText Float := ⟨Number.Format.diagram.text⟩

namespace Layout

def markerSize : Nat := 8

def labelWidth : Nat := 40

def labelHeight : Nat := 20

/-- The distance of the category labels from the horizontal axis. -/
def categoryGap : Nat := 5

/-- The distance of the left side of a tick label from the vertical axis. -/
def tickInset : Nat := 45

def titleTop : Nat := 10

def titleHeight : Nat := 30

end Layout

namespace Diagram

open Layout Scalar

variable {α : Type} [Scalar α] [NumberText α]

def axisCells (c : Canvas α) : List (Cell α) :=
  let origin : Point α := ⟨c.padding, c.baseline⟩
  [⟨"axis-y", "", .axis, .edge origin ⟨c.padding, c.padding⟩⟩,
    ⟨"axis-x", "", .axis, .edge origin ⟨c.right, c.baseline⟩⟩]

def categoryCell (c : Canvas α) (i : Nat) (label : String) (p : Point α) : Cell α :=
  ⟨s!"xlabel-{i}", label, .textBox .center .top,
    .box (p.x - ofNat (labelWidth / 2)) (c.baseline + ofNat categoryGap) (ofNat labelWidth)
      (ofNat labelHeight)⟩

/-- A category without a point has no label. -/
def categoryCells (categories : List String) (plot : Plot α) : List (Cell α) :=
  (categories.zip plot.points).mapIdx fun i (label, p) => categoryCell plot.canvas i label p

def tickLabel (c : Canvas α) (t : Tick α) : Cell α :=
  ⟨s!"ylabel-{t.index}", NumberText.text t.value, .textBox .right .middle,
    .box (c.padding - ofNat tickInset) (t.y - ofNat (labelHeight / 2)) (ofNat labelWidth)
      (ofNat labelHeight)⟩

def gridline (c : Canvas α) (t : Tick α) : Cell α :=
  ⟨s!"grid-{t.index}", "", .gridline, .edge ⟨c.padding, t.y⟩ ⟨c.right, t.y⟩⟩

/-- The lowest tick has no gridline, since the horizontal axis is drawn there. -/
def tickCells (c : Canvas α) (ticks : List (Tick α)) : List (Cell α) :=
  ticks.flatMap fun t => if t.index = 0 then [tickLabel c t] else [tickLabel c t, gridline c t]

def segment (i : Nat) (source target : Point α) : Cell α :=
  ⟨s!"line-{i}", "", .dataLine, .edge source target⟩

def marker (i : Nat) (p : Point α) (v : α) : Cell α :=
  let half : α := ofNat (markerSize / 2)
  ⟨s!"point-{i}", NumberText.text v, .marker,
    .box (p.x - half) (p.y - half) (ofNat markerSize) (ofNat markerSize)⟩

/-- The markers from the `i`-th on, each after the segment to the point that follows it. -/
def seriesCells (i : Nat) : List (Point α) → List α → List (Cell α)
  | p :: points, v :: series =>
    (points.head?.map (segment i p)).toList ++ marker i p v :: seriesCells (i + 1) points series
  | _, _ => []

def titleCell (c : Canvas α) (title : String) : Cell α :=
  ⟨"title", title, .title,
    .box c.padding (ofNat titleTop) c.plotWidth (ofNat titleHeight)⟩

end Diagram

open Diagram in
/-- The drawing of a chart whose points stand as a plot says. -/
def Chart.diagram {α : Type} [Scalar α] [NumberText α] (chart : Chart α) (plot : Plot α) :
    Diagram α where
  cells :=
    axisCells plot.canvas ++ categoryCells chart.categories plot ++
      tickCells plot.canvas (chart.valueAxis.ticks plot.canvas) ++
      seriesCells 0 plot.points chart.series ++ [titleCell plot.canvas chart.title]

end LineChart
