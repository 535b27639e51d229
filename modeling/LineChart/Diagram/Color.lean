namespace LineChart

inductive Color where
  /-- Leaves out what it is given to. -/
  | clear
  | rgb (red green blue : UInt8)
deriving DecidableEq

namespace Color

def white : Color := .rgb 0xFF 0xFF 0xFF

def markerRed : Color := .rgb 0xFF 0x00 0x00

def lineBlue : Color := .rgb 0x00 0x66 0xCC

def gridGray : Color := .rgb 0xE0 0xE0 0xE0

/-- Two hexadecimal digits. -/
def hexByte (b : UInt8) : List Char :=
  [(b.toNat / 16).digitChar.toUpper, (b.toNat % 16).digitChar.toUpper]

def text : Color → String
  | clear => "none"
  | rgb r g b => String.ofList ('#' :: hexByte r ++ hexByte g ++ hexByte b)

end Color

end LineChart
