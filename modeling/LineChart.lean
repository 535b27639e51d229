import LineChart.Main
import LineChart.Proofs.Chart.LayoutEdit
import LineChart.Proofs.Chart.RoundTrip
import LineChart.Proofs.Conversion
import LineChart.Proofs.Diagram.Conformance
import LineChart.Proofs.Diagram.Locality
import LineChart.Proofs.Diagram.RoundTrip
import LineChart.Proofs.Command.FileTree
import LineChart.Proofs.Command.Run
import LineChart.Proofs.Command.Diagnostics
import LineChart.Proofs.Plot.Scale
import LineChart.Proofs.Diagram.Heights
import LineChart.Proofs.Plot.Area
import LineChart.Proofs.Number.Arithmetic
import LineChart.Proofs.Settings.Validation
import LineChart.Number.Literal
import LineChart.Number.Notation
import LineChart.Proofs.Text.Pattern
import LineChart.Chart.AxisPattern
import LineChart.Proofs.Number.Grammar
import LineChart.Proofs.Number.Literal
import LineChart.Proofs.Number.Minimal
import LineChart.Proofs.Number.Notation
import LineChart.Proofs.Chart.AxisPattern
import LineChart.Proofs.Chart.Arrow
import LineChart.Proofs.Chart.RangeNumbers
import LineChart.Proofs.Markup.Balance
import LineChart.Proofs.Diagram.PaintOrder
import LineChart.Proofs.Plot.Ticks
import LineChart.Proofs.Diagram.Gridlines
import LineChart.Proofs.Chart.NormalForm
import LineChart.Proofs.Diagram.StyleEntries
import LineChart.Proofs.Text.Compaction
import LineChart.Proofs.Markup.Substitution
