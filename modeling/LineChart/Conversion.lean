import LineChart.Chart.Reading
import LineChart.Diagram.Markup
import LineChart.Settings

namespace LineChart

/-- The diagram file for a chart text. -/
def convert (text : String) (settings : Settings Float) : String :=
  let chart := Chart.ofText text
  (chart.diagram (chart.plot settings.canvas)).document settings.toMetadata

end LineChart
