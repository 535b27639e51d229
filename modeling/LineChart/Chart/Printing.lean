import LineChart.Chart.Basic
import LineChart.Number.Format

namespace LineChart

open Number (Format)

def bracketed (items : List (List Char)) : List Char :=
  '[' :: List.intercalate ", ".toList items ++ [']']

def ValueAxis.chars (axis : ValueAxis Float) : List Char :=
  "y-axis \"".toList ++ axis.label.toList ++ "\" ".toList ++ Format.diagram.chars axis.min ++
    " --> ".toList ++ Format.diagram.chars axis.max

/-- The lines of a chart text. Categories and series are left out where there are none. -/
def Chart.printedLines (chart : Chart Float) : List (List Char) :=
  ["title \"".toList ++ chart.title.toList ++ ['"']] ++
    (if chart.categories = [] then []
      else ["x-axis ".toList ++ bracketed (chart.categories.map String.toList)]) ++
    [chart.valueAxis.chars] ++
    (if chart.series = [] then []
      else ["line ".toList ++ bracketed (chart.series.map Format.diagram.chars)])

/-- A chart text that describes the chart. -/
def Chart.toText (chart : Chart Float) : String :=
  String.ofList (List.intercalate ['\n'] chart.printedLines)

end LineChart
