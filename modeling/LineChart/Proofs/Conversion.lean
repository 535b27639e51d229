import LineChart.Conversion
import LineChart.Proofs.Chart.Reading
import LineChart.Proofs.Diagram.Layout

namespace LineChart

open Diagram Text

end LineChart
