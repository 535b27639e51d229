import LineChart.Number.Shortest

namespace LineChart.Number

/-- How a number is spelled. A decimal is written without an exponent as long as its point stands
between `leastPoint` and `greatestPoint`. -/
structure Format where
  leastPoint : Int
  greatestPoint : Int
  /-- Follows the digits of a whole number. -/
  wholeMark : List Char
  /-- Stands before an exponent that is not negative. -/
  exponentMark : List Char
  infinity : List Char
  signsZero : Bool

/-- Numbers in a diagram: whole numbers bare, exponents outside `1e-6 … 1e21` and always signed. -/
def Format.diagram : Format where
  leastPoint := -5
  greatestPoint := 21
  wholeMark := []
  exponentMark := ['+']
  infinity := "Infinity".toList
  signsZero := false

/-- Numbers in diagnostics: a point in every positional number, exponents outside
`1e-4 … 1e16`. -/
def Format.diagnostic : Format where
  leastPoint := -3
  greatestPoint := 16
  wholeMark := ".0".toList
  exponentMark := []
  infinity := "inf".toList
  signsZero := true

def Format.positional (f : Format) (d : Decimal) : List Char :=
  if d.point ≤ 0 then
    '0' :: '.' :: List.replicate (-d.point).toNat '0' ++ d.digits
  else if d.point < d.digits.length then
    d.digits.take d.point.toNat ++ '.' :: d.digits.drop d.point.toNat
  else
    d.digits ++ List.replicate (d.point.toNat - d.digits.length) '0' ++ f.wholeMark

def Format.scientific (f : Format) (d : Decimal) : List Char :=
  let fraction := d.digits.drop 1
  let power := d.point - 1
  d.digits.take 1 ++ (if fraction = [] then [] else '.' :: fraction) ++ 'e' ::
    (if power < 0 then ['-'] else f.exponentMark) ++ Nat.toDigits 10 power.natAbs

/-- The magnitude of finite rank `r`. -/
def Format.magnitude (f : Format) (r : Nat) : List Char :=
  if r = 0 then '0' :: f.wholeMark
  else
    let d := shortest r
    if f.leastPoint ≤ d.point ∧ d.point ≤ f.greatestPoint then f.positional d else f.scientific d

def Format.chars (f : Format) (v : Float) : List Char :=
  if isNaN v then "NaN".toList
  else
    let sign := if isNegative v ∧ (rank v ≠ 0 ∨ f.signsZero) then ['-'] else []
    sign ++ if isInfinite v then f.infinity else f.magnitude (rank v)

def Format.text (f : Format) (v : Float) : String := String.ofList (f.chars v)

end LineChart.Number
