import LineChart.Diagram.Style
import LineChart.Plot.Basic

namespace LineChart

/-- A box by its upper left corner and its size, or an edge from one point to another. -/
inductive Placement (α : Type) where
  | box (x y width height : α)
  | edge (source target : Point α)
deriving DecidableEq

/-- One thing drawn, with the text that it shows. -/
structure Cell (α : Type) where
  id : String
  value : String
  style : Style
  placement : Placement α
deriving DecidableEq

/-- The cells of a drawing, a later one painted over an earlier one. -/
structure Diagram (α : Type) where
  cells : List (Cell α)
deriving DecidableEq

end LineChart
