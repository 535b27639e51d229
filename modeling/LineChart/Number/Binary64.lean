namespace LineChart.Number

/-- `2 ^ 63`, the sign in a bit pattern. -/
def signBit : Nat := 0x8000000000000000

/-- `2 ^ 52`, the leading bit of a significand, which the bit pattern of a normal number leaves out. -/
def leadingBit : Nat := 0x10000000000000

/-- The magnitudes of the binary64 numbers in increasing order, zero first, are the bit patterns
without their sign; a magnitude's place in that order is its rank, and infinity comes last. -/
def rank (v : Float) : Nat := v.toBits.toNat % signBit

def infinityRank : Nat := 2047 * leadingBit

def isNegative (v : Float) : Bool := signBit ≤ v.toBits.toNat

def ofRank (negative : Bool) (r : Nat) : Float :=
  Float.ofBits (UInt64.ofNat (if negative then signBit + r else r))

def isNaN (v : Float) : Bool := infinityRank < rank v

def isInfinite (v : Float) : Bool := rank v == infinityRank

def notANumber : Float := Float.ofBits 0x7FF8000000000000

/-- The magnitude of finite rank `r` is `significand r * 2 ^ exponent r`. -/
def significand (r : Nat) : Nat :=
  if r < leadingBit then r else leadingBit + r % leadingBit

def exponent (r : Nat) : Int :=
  if r < leadingBit then -1074 else (r / leadingBit : Nat) - 1075

/-- The magnitude of finite rank `r` as a whole number times a power of ten, without any rounding:
a negative power of two is traded for a power of five. -/
def exactDecimal (r : Nat) : Nat × Int :=
  let q := exponent r
  if 0 ≤ q then (significand r * Nat.pow 2 q.toNat, 0)
  else (significand r * Nat.pow 5 (-q).toNat, q)

end LineChart.Number
