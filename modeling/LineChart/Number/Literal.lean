import LineChart.Number.Numeral

namespace LineChart.Number

/-! A conversion to binary64 need not know every spelling of a numeral. The numeral that a buffer
starts with is rewritten for it as a literal: digits on both sides of a point, no plus, and an
exponent only with digits. -/

/-- A slice from `low` to `high` was asked of a buffer that it does not lie in. -/
structure SliceFault where
  low : Nat
  high : Nat
  size : Nat
deriving DecidableEq

def slice (b : Array UInt8) (low high : Nat) : Except SliceFault (List UInt8) :=
  if low ≤ high ∧ high ≤ b.size then .ok (b.extract low high).toList
  else .error ⟨low, high, b.size⟩

/-- ASCII text as bytes. -/
def ascii (s : List Char) : List UInt8 := s.map Char.toUInt8

/-- Whether a byte is one of the ASCII digits. -/
def isDigitByte (c : UInt8) : Bool := '0'.toUInt8 ≤ c && c ≤ '9'.toUInt8

/-- What is left of a sign. -/
def minusBytes (negative : Bool) : List UInt8 := if negative then ascii ['-'] else []

/-- How many digits stand from place `i` on. -/
def digitsFrom (b : Array UInt8) (i : Nat) : Except SliceFault Nat := do
  let rest ← slice b i b.size
  return (rest.takeWhile isDigitByte).length

/-- Whether a minus stands at place `i`, and the place after the sign, if there is one. -/
def signAt (b : Array UInt8) (i : Nat) : Bool × Nat :=
  if b[i]? = some '-'.toUInt8 then (true, i + 1)
  else if b[i]? = some '+'.toUInt8 then (false, i + 1)
  else (false, i)

/-- The digits after a point at place `i`, and the place after them. -/
def fractionAt (b : Array UInt8) (i : Nat) : Except SliceFault (List UInt8 × Nat) :=
  if b[i]? = some '.'.toUInt8 then do
    let length ← digitsFrom b (i + 1)
    let fraction ← slice b (i + 1) (i + 1 + length)
    return (fraction, i + 1 + length)
  else return ([], i)

/-- The exponent at place `i` without a plus; nothing for a mark that no digits follow. -/
def exponentAt (b : Array UInt8) (i : Nat) : Except SliceFault (List UInt8) :=
  if b[i]? = some 'e'.toUInt8 ∨ b[i]? = some 'E'.toUInt8 then do
    let (negative, start) := signAt b (i + 1)
    let length ← digitsFrom b start
    if length = 0 then return []
    else
      let digits ← slice b start (start + length)
      return ascii ['e'] ++ minusBytes negative ++ digits
  else return []

/-- The literal for the longest numeral that `b` starts with. -/
def literalPrefix? (b : Array UInt8) : Except SliceFault (Option (List UInt8)) := do
  let (negative, start) := signAt b 0
  let rest ← slice b start b.size
  if (ascii "Infinity".toList).isPrefixOf rest then
    return some (minusBytes negative ++ ascii "inf".toList)
  else
    let length ← digitsFrom b start
    let whole ← slice b start (start + length)
    let (fraction, next) ← fractionAt b (start + length)
    if whole = [] ∧ fraction = [] then return none
    else
      let exponent ← exponentAt b next
      return some (minusBytes negative ++ (if whole = [] then ascii ['0'] else whole) ++
        (if fraction = [] then [] else ascii ['.'] ++ fraction) ++ exponent)

/-- The bytes of a token without padding and with a hyphen for each minus sign. -/
def tokenBytes (token : List Char) : Array UInt8 :=
  (String.ofList (Text.hyphenated (Text.trimPadding token))).toUTF8.data

/-- The number that a token starts with, or NaN, by a conversion of literals. -/
def ofTokenBy (convert : List UInt8 → Option Float) (token : List Char) :
    Except SliceFault Float := do
  let literal? ← literalPrefix? (tokenBytes token)
  return (literal?.bind convert).getD notANumber

end LineChart.Number
