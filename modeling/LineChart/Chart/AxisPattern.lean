import LineChart.Chart.Basic
import LineChart.Chart.Statement
import LineChart.Text.Pattern

namespace LineChart

open Text

/-! The text behind the keyword of a value axis, searched for its parts by patterns. -/

/-- `\d+` -/
def digitsPattern : Pattern := .one isDecimalDigit ++ .many isDecimalDigit

/-- `-?\d+(?:\.\d+)?` -/
def boundPattern : Pattern :=
  .optional (.char '-') ++ digitsPattern ++ .optional (.char '.' ++ digitsPattern)

/-- `-->` -/
def arrowPattern : Pattern := .char '-' ++ .char '-' ++ .char '>'

/-- `(bound)\s*-->\s*(bound)` -/
def rangePattern : Pattern :=
  .group boundPattern ++ .many isBlank ++ arrowPattern ++ .many isBlank ++ .group boundPattern

/-- The axis with the bounds of the first range in a text, where a minus sign may stand for a hyphen,
and with the first quoted text as its label. What is not found stays as it was. -/
def ValueAxis.revise (axis : ValueAxis Float) (rest : List Char) : ValueAxis Float :=
  let ranged := match rangePattern.captures? (hyphenated rest) with
    | some [low, high] => { axis with min := Number.ofToken low, max := Number.ofToken high }
    | _ => axis
  match (Pattern.enclosed '"' '"').captures? rest with
  | some [label] => { ranged with label := String.ofList label }
  | _ => ranged

end LineChart
