import LineChart.Chart.Range
import LineChart.Number.Numeral
import LineChart.Text.Group

namespace LineChart

open Text

/-- A line of chart text by its keyword, with the text after it. The text of a value axis comes
without the blanks around it. -/
inductive Statement where
  | title (rest : List Char)
  | xAxis (rest : List Char)
  | yAxis (rest : List Char)
  | line (rest : List Char)
  | other
deriving DecidableEq

/-- The items of the first bracketed list in a text. -/
def listItems? (s : List Char) : Option (List (List Char)) :=
  (between? '[' ']' s).map (List.splitOn ',')

namespace Statement

def ofLine (s : List Char) : Statement :=
  if let some rest := "title".toList.isPrefixOf? s then .title rest
  else if let some rest := "x-axis".toList.isPrefixOf? s then .xAxis rest
  else if let some rest := "y-axis".toList.isPrefixOf? s then .yAxis (trim rest)
  else if let some rest := "line".toList.isPrefixOf? s then .line rest
  else .other

/-- The title that a statement sets; quotes count for nothing. -/
def title? : Statement → Option String
  | title rest => some (String.ofList (trim (rest.filter (· != '"'))))
  | _ => none

def categories? : Statement → Option (List String)
  | xAxis rest => (listItems? rest).map (List.map (String.ofList ∘ trim))
  | _ => none

def series? : Statement → Option (List Float)
  | line rest => (listItems? rest).map (List.map Number.ofToken)
  | _ => none

/-- The bounds of the value axis; a minus sign may stand for a hyphen. -/
def range? : Statement → Option (Float × Float)
  | yAxis rest => (findRange? (hyphenated rest)).map fun (low, high) =>
      (Number.ofToken low, Number.ofToken high)
  | _ => none

def label? : Statement → Option String
  | yAxis rest => (between? '"' '"' rest).map String.ofList
  | _ => none

end Statement

end LineChart
