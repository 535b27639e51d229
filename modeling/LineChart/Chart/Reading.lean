import LineChart.Chart.Basic
import LineChart.Chart.Statement

namespace LineChart

/-- The lines of a chart text, without the blanks around them; empty lines are left out. A carriage
return is a blank, so that either kind of line end will do. -/
def chartLines (text : List Char) : List (List Char) :=
  ((text.splitOn '\n').map Text.trimPadding).filter (· ≠ [])

/-- What a statement does not set stays as it is. -/
def Chart.update (chart : Chart Float) (s : Statement) : Chart Float :=
  let (low, high) := s.range?.getD (chart.valueAxis.min, chart.valueAxis.max)
  { title := s.title?.getD chart.title
    categories := s.categories?.getD chart.categories
    valueAxis := ⟨s.label?.getD chart.valueAxis.label, low, high⟩
    series := s.series?.getD chart.series }

/-- The chart that a text describes: every line is read on its own, and a later one prevails. -/
def Chart.ofText (text : String) : Chart Float :=
  ((chartLines text.toList).map Statement.ofLine).foldl Chart.update Chart.empty

/-- The lines without a keyword. -/
def ignoredLines (text : String) : List (List Char) :=
  (chartLines text.toList).filter fun line => Statement.ofLine line = .other

end LineChart
