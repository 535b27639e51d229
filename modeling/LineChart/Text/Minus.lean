namespace LineChart.Text

/-- The minus sign U+2212 becomes the hyphen that numerals are read with. -/
def hyphenated (s : List Char) : List Char :=
  s.map fun c => if c = '\u2212' then '-' else c

/-- In UTF-8 the minus sign is the three bytes E2 88 92. -/
def hyphenatedBytes : List UInt8 → List UInt8
  | 0xE2 :: 0x88 :: 0x92 :: rest => 0x2D :: hyphenatedBytes rest
  | b :: rest => b :: hyphenatedBytes rest
  | [] => []

/-- A minus sign stands at place `i`. -/
def minusAt (bytes : Array UInt8) (i : Nat) : Bool :=
  bytes[i]? == some 0xE2 && bytes[i + 1]? == some 0x88 && bytes[i + 2]? == some 0x92

/-- Closes the gap between the `written` bytes in front and the bytes not yet read, each minus sign
shrinking to a hyphen on the way; no byte is overwritten before it is read. -/
def compactMinus (bytes : Array UInt8) (written read : Nat) (h : written ≤ read) : Array UInt8 :=
  if hr : read < bytes.size then
    if minusAt bytes read then
      compactMinus (bytes.set written 0x2D) (written + 1) (read + 3) (by omega)
    else
      compactMinus (bytes.set written bytes[read]) (written + 1) (read + 1) (by omega)
  else bytes.take written
termination_by bytes.size - read

/-- Every minus sign in a buffer of UTF-8 becomes a hyphen, without a second buffer. -/
def hyphenateBytes (bytes : Array UInt8) : Array UInt8 :=
  compactMinus bytes 0 0 (Nat.le_refl 0)

end LineChart.Text
