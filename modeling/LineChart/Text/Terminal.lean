import LineChart.Text.Quoted

namespace LineChart.Text

/-- The one-byte controls that begin or are a command to a terminal: bell, backspace, form feed,
escape and delete. -/
def terminalControls : List Char := ['\x07', '\x08', '\x0c', '\x1b', '\x7f']

/-- A control that a terminal obeys is spelled out; every other character stands for itself. -/
def disarmChar (c : Char) : List Char :=
  if c ∈ terminalControls then
    ['\\', 'x', Nat.digitChar (c.toNat / 16), Nat.digitChar (c.toNat % 16)]
  else if '\u0080' ≤ c ∧ c ≤ '\u009f' then spellNumber c
  else [c]

/-- A text that a terminal shows and does not obey. -/
def disarm (s : List Char) : List Char := s.flatMap disarmChar

end LineChart.Text
