import Mathlib.Data.List.OfFn
import LineChart.Diagram.Layout

namespace LineChart

namespace Diagram

variable {α : Type} [Scalar α] [NumberText α]

end Diagram

end LineChart
