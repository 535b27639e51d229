import LineChart.Diagram.Metadata
import LineChart.Plot.Canvas

namespace LineChart

/-- What a diagram file depends on besides its chart. -/
structure Settings (α : Type) extends Metadata where
  canvas : Canvas α
deriving DecidableEq

inductive CanvasFault where
  | size
  | margins
  | drawableArea
deriving DecidableEq

def CanvasFault.reason : CanvasFault → String
  | size => "width and height must be positive"
  | margins => "padding and x offset must not be negative"
  | drawableArea => "padding leaves no drawable area"

def CanvasFault.message (fault : CanvasFault) : String := "invalid canvas: " ++ fault.reason

variable {α : Type} [Scalar α]

def Settings.standard : Settings α := { canvas := .standard }

/-- The first fault of a canvas. A size or margin that is not a number fails its test. -/
def Canvas.fault? (c : Canvas α) : Option CanvasFault :=
  let zero : α := Scalar.ofNat 0
  if ¬(zero < c.width ∧ zero < c.height) then some .size
  else if ¬(zero ≤ c.padding ∧ zero ≤ c.xOffset) then some .margins
  else if c.plotHeight ≤ zero ∨ c.innerWidth ≤ zero then some .drawableArea
  else none

/-- One field of the settings, with the value chosen for it. -/
inductive Choice (α : Type) where
  | canvas (c : Canvas α)
  | host (name : String)
  | agent (name : String)
  | modified (stamp : String)

def Settings.choose (s : Settings α) : Choice α → Settings α
  | .canvas c => { s with canvas := c }
  | .host name => { s with host := name }
  | .agent name => { s with agent := name }
  | .modified stamp => { s with modified := some stamp }

/-- Choices made one after the other from the standard settings on; the canvas that comes of them
must be sound. -/
def Settings.ofChoices (choices : List (Choice α)) : Except CanvasFault (Settings α) :=
  let s : Settings α := choices.foldl Settings.choose .standard
  match s.canvas.fault? with
  | some fault => .error fault
  | none => .ok s

end LineChart
