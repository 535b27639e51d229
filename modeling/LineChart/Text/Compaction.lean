import LineChart.Text.Minus

namespace LineChart.Text

/-! A buffer is shortened in place by single reads and writes, each of which could miss it, in a loop
that could have no end. -/

/-- A byte was asked for or written outside a buffer. -/
structure IndexFault where
  place : Nat
  size : Nat
deriving DecidableEq

def byteAt (buffer : Array UInt8) (place : Nat) : Except IndexFault UInt8 :=
  if h : place < buffer.size then .ok buffer[place] else .error ⟨place, buffer.size⟩

def putByte (buffer : Array UInt8) (place : Nat) (b : UInt8) : Except IndexFault (Array UInt8) :=
  if h : place < buffer.size then .ok (buffer.set place b) else .error ⟨place, buffer.size⟩

/-- Whether the given bytes stand from a place on. None is read after one that differs. -/
def standsAt (buffer : Array UInt8) (place : Nat) : List UInt8 → Except IndexFault Bool
  | [] => return true
  | b :: rest => do
    if (← byteAt buffer place) = b then standsAt buffer (place + 1) rest else return false

/-- The minus sign U+2212 in UTF-8. -/
def minusSign : List UInt8 := [0xE2, 0x88, 0x92]

/-- A buffer on the way: the bytes before `written` are final, those from `read` on are still to be
read. -/
structure Compaction where
  buffer : Array UInt8
  read : Nat
  written : Nat

namespace Compaction

def start (bytes : Array UInt8) : Compaction := ⟨bytes, 0, 0⟩

/-- Whether a minus sign comes next; there is none in less than three bytes. -/
def atMinus (c : Compaction) : Except IndexFault Bool :=
  if c.read + 2 < c.buffer.size then standsAt c.buffer c.read minusSign else return false

/-- A minus sign is written as a hyphen, any other byte as it is, unless it stands in its place. -/
def advance (c : Compaction) : Except IndexFault Compaction := do
  if ← c.atMinus then
    let buffer ← putByte c.buffer c.written 0x2D
    return ⟨buffer, c.read + 3, c.written + 1⟩
  else if c.read = c.written then
    return ⟨c.buffer, c.read + 1, c.written + 1⟩
  else
    let buffer ← putByte c.buffer c.written (← byteAt c.buffer c.read)
    return ⟨buffer, c.read + 1, c.written + 1⟩

/-- How the loop ends: with what is left of the buffer when all is read, or with a fault. Where it goes
on forever it ends in no way. -/
inductive Ends : Compaction → Except IndexFault (Array UInt8) → Prop
  | done {c : Compaction} (hleft : ¬c.read < c.buffer.size) : Ends c (.ok (c.buffer.take c.written))
  | fault {c : Compaction} {fault : IndexFault} (hleft : c.read < c.buffer.size)
      (hfault : c.advance = .error fault) : Ends c (.error fault)
  | advance {c next : Compaction} {outcome : Except IndexFault (Array UInt8)}
      (hleft : c.read < c.buffer.size) (hnext : c.advance = .ok next) (hends : Ends next outcome) :
      Ends c outcome

/-- The states that the loop comes to on a buffer. -/
inductive Visits (bytes : Array UInt8) : Compaction → Prop
  | start : Visits bytes (start bytes)
  | advance {c next : Compaction} (hc : Visits bytes c) (hleft : c.read < c.buffer.size)
      (hnext : c.advance = .ok next) : Visits bytes next

end Compaction

/-- The text with a hyphen for each minus sign, by way of its bytes. `repair` makes a text of bytes
that are none. -/
def hyphenatedText (repair : ByteArray → String) (text : String) : String :=
  let bytes : ByteArray := ⟨hyphenateBytes text.toUTF8.data⟩
  (String.fromUTF8? bytes).getD (repair bytes)

end LineChart.Text
