import LineChart.Number.Nearest
import LineChart.Text.Blank
import LineChart.Text.Minus

namespace LineChart.Number

inductive Magnitude where
  | infinity
  /-- `whole.fraction * 10 ^ exponent`, the digits as they were written. -/
  | decimal (whole fraction : List Char) (exponent : Int)
deriving DecidableEq

structure Numeral where
  negative : Bool
  magnitude : Magnitude
deriving DecidableEq

/-- An optional sign, and what follows it. -/
def signOf : List Char → Bool × List Char
  | '-' :: rest => (true, rest)
  | '+' :: rest => (false, rest)
  | s => (false, s)

/-- The digits after a point, and what follows them. -/
def fractionOf : List Char → List Char × List Char
  | '.' :: rest => (rest.takeWhile Char.isDigit, rest.dropWhile Char.isDigit)
  | s => ([], s)

/-- The exponent that `s` starts with. One without digits counts for nothing. -/
def exponentOf (s : List Char) : Int :=
  match s with
  | c :: rest =>
    if c = 'e' ∨ c = 'E' then
      let (negative, digits) := signOf rest
      let n : Int := Nat.ofDigitChars 10 (digits.takeWhile Char.isDigit) 0
      if negative then -n else n
    else 0
  | [] => 0

/-- The longest numeral that `s` starts with: a sign, then `Infinity` or digits with a point and an
exponent; digits must stand on one side of the point at least. -/
def Numeral.scan? (s : List Char) : Option Numeral :=
  let (negative, rest) := signOf s
  if "Infinity".toList.isPrefixOf rest then some ⟨negative, .infinity⟩
  else
    let whole := rest.takeWhile Char.isDigit
    let (fraction, tail) := fractionOf (rest.dropWhile Char.isDigit)
    if whole = [] ∧ fraction = [] then none
    else some ⟨negative, .decimal whole fraction (exponentOf tail)⟩

def Magnitude.rank : Magnitude → Nat
  | .infinity => infinityRank
  | .decimal whole fraction exponent =>
    rankOfDecimal (Nat.ofDigitChars 10 (whole ++ fraction) 0) (exponent - fraction.length)

/-- The binary64 number nearest to the numeral. -/
def Numeral.toFloat (n : Numeral) : Float := ofRank n.negative n.magnitude.rank

/-- The number that a token starts with, or NaN. -/
def ofToken (token : List Char) : Float :=
  match Numeral.scan? (Text.hyphenated (Text.trimPadding token)) with
  | some n => n.toFloat
  | none => notANumber

end LineChart.Number
