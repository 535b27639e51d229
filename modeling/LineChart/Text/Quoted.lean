import LineChart.Text.Unprintable

namespace LineChart.Text

/-- A character spelled by its number. -/
def spellNumber (c : Char) : List Char :=
  ['\\', 'u', '\x7b'] ++ Nat.toDigits 16 c.toNat ++ ['\x7d']

/-- A character as it stands between quotes, escaped by name or by number if it must be. -/
def quoteChar (c : Char) : List Char :=
  if c = '"' ∨ c = '\\' then ['\\', c]
  else if c = '\t' then ['\\', 't']
  else if c = '\r' then ['\\', 'r']
  else if c = '\n' then ['\\', 'n']
  else if c.toNat = 0 then ['\\', '0']
  else if isUnprintable c then spellNumber c
  else [c]

def quote (s : List Char) : List Char := '"' :: s.flatMap quoteChar ++ ['"']

end LineChart.Text
