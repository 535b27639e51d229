import LineChart.Text.Blank
import LineChart.Text.DecimalDigit

namespace LineChart

open Text

/-- The digits after a point, if there are any, with the point; and what follows them. -/
def boundFraction (s : List Char) : List Char × List Char :=
  match s with
  | '.' :: rest =>
    if rest.takeWhile isDecimalDigit = [] then ([], s)
    else ('.' :: rest.takeWhile isDecimalDigit, rest.dropWhile isDecimalDigit)
  | _ => ([], s)

/-- The longest bound that `s` starts with, and what follows it: a hyphen or none, digits, and a
point with more digits or none. -/
def bound? (s : List Char) : Option (List Char × List Char) :=
  let (sign, digits) := match s with
    | '-' :: rest => (['-'], rest)
    | _ => ([], s)
  let whole := digits.takeWhile isDecimalDigit
  if whole = [] then none
  else
    let (fraction, rest) := boundFraction (digits.dropWhile isDecimalDigit)
    some (sign ++ whole ++ fraction, rest)

/-- The two bounds of a range `low --> high` that `s` starts with; blanks may surround the arrow. -/
def rangeAt? (s : List Char) : Option (List Char × List Char) := do
  let (low, rest) ← bound? s
  let rest ← "-->".toList.isPrefixOf? (rest.dropWhile isBlank)
  let (high, _) ← bound? (rest.dropWhile isBlank)
  return (low, high)

/-- The bounds of the first range in a text. -/
def findRange? : List Char → Option (List Char × List Char)
  | [] => none
  | c :: rest =>
    match rangeAt? (c :: rest) with
    | some bounds => some bounds
    | none => findRange? rest

end LineChart
