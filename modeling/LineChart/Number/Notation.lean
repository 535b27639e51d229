import LineChart.Number.Format

namespace LineChart.Number

/-! The text of a number in a diagram with its notation chosen by comparison: the number itself, and
not the point of its digits, is held against `1e-6` and `1e21`. -/

/-- The fewest digits of a finite number, written out to the point and beyond. -/
def positionalChars (v : Float) : List Char :=
  (if isNegative v then ['-'] else []) ++ Format.diagram.positional (shortest (rank v))

/-- The fewest digits of a finite number with an exponent, which has a sign only if it is
negative. -/
def scientificChars (v : Float) : List Char :=
  (if isNegative v then ['-'] else []) ++
    { Format.diagram with exponentMark := [] }.scientific (shortest (rank v))

/-- The exponent is given a plus unless it has a minus. -/
def markExponent (s : List Char) : List Char :=
  match s.dropWhile (· != 'e') with
  | _ :: power =>
    if power.head? = some '-' then s else s.takeWhile (· != 'e') ++ 'e' :: '+' :: power
  | [] => s

def charsBySize (v : Float) : List Char :=
  if isNaN v then "NaN".toList
  else if isInfinite v then if 0 < v then "Infinity".toList else "-Infinity".toList
  else if v == 0 then ['0']
  else if 1e-6 ≤ v.abs ∧ v.abs < 1e21 then positionalChars v
  else markExponent (scientificChars v)

end LineChart.Number
