import LineChart.Number.Binary64

namespace LineChart.Number

/-- The whole number nearest to `num / den`; a half goes to the even neighbour. -/
def divNearest (num den : Nat) : Nat :=
  let low := num / den
  let excess := 2 * (num % den)
  if excess < den ∨ (excess = den ∧ low % 2 = 0) then low else low + 1

/-- The exponent `e` with `2 ^ e ≤ num / den < 2 ^ (e + 1)`. -/
def log2Ratio (num den : Nat) : Int :=
  let e := (num.log2 : Int) - den.log2
  if den * Nat.pow 2 e.toNat ≤ num * Nat.pow 2 (-e).toNat then e else e - 1

/-- The rank of the magnitude nearest to `num / den`, a tie going to the even rank; what rounds
beyond the greatest finite magnitude is infinite. With the significand in units of `2 ^ q` the rank
is a sum, so that a significand rounded up to `2 ^ 53` carries into the next binade. -/
def rankOfRatio (num den : Nat) : Nat :=
  if num = 0 then 0
  else
    let q := max (-1074) (log2Ratio num den - 52)
    let m := divNearest (num * Nat.pow 2 (-q).toNat) (den * Nat.pow 2 q.toNat)
    min ((q + 1074).toNat * leadingBit + m) infinityRank

/-- The rank nearest to `c * 10 ^ e`. The first tests answer for numbers too large or too small by
far, so that no power of ten grows beyond the size of the digits and of the range. -/
def rankOfDecimal (c : Nat) (e : Int) : Nat :=
  if c = 0 then 0
  else if 309 < e then infinityRank
  else if e < -(400 + c.log2 : Nat) then 0
  else rankOfRatio (c * Nat.pow 10 e.toNat) (Nat.pow 10 (-e).toNat)

def ofNat (n : Nat) : Float := ofRank false (rankOfRatio n 1)

/-- The greatest whole number that is not above `v`; infinities and NaN are kept. -/
def floor (v : Float) : Float :=
  let r := rank v
  let unit := Nat.pow 2 (-exponent r).toNat
  if infinityRank ≤ r ∨ significand r % unit = 0 then v
  else
    let whole := significand r / unit
    if isNegative v then ofRank true (rankOfRatio (whole + 1) 1)
    else ofRank false (rankOfRatio whole 1)

end LineChart.Number
