import LineChart.Diagram.Cell
import LineChart.Diagram.Metadata
import LineChart.Markup.Reader
import LineChart.Number.Numeral

namespace LineChart

namespace Markup.Element

def attribute? (e : Element) (key : String) : Option String := e.attributes.lookup key

def number? (e : Element) (key : String) : Option Float :=
  (e.attribute? key).map fun text => Number.ofToken text.toList

/-- The cells on the only page of a diagram file, with the two that the others hang from. -/
def pageCells (file : Element) : List Element :=
  match file.children with
  | [⟨_, _, [⟨_, _, [⟨_, _, cells⟩]⟩]⟩] => cells
  | _ => []

/-- The text that the cell with the id `id` shows. -/
def shownText? (file : Element) (id : String) : Option String :=
  (file.pageCells.find? (·.attribute? "id" = some id)).bind (·.attribute? "value")

end Markup.Element

open Markup

def Point.ofElement? (e : Element) : Option (Point Float) := do
  return ⟨← e.number? "x", ← e.number? "y"⟩

def Placement.ofElement? (e : Element) : Option (Placement Float) :=
  match e.children with
  | [source, target] => do return .edge (← Point.ofElement? source) (← Point.ofElement? target)
  | _ => do
    return .box (← e.number? "x") (← e.number? "y") (← e.number? "width") (← e.number? "height")

def Cell.ofElement? (e : Element) : Option (Cell Float) :=
  match e.children with
  | [placement] => do
    return {
      id := ← e.attribute? "id"
      value := ← e.attribute? "value"
      style := ⟨← e.attribute? "style"⟩
      placement := ← Placement.ofElement? placement }
  | _ => none

def Metadata.ofElement? (e : Element) : Option Metadata := do
  return {
    host := ← e.attribute? "host"
    agent := ← e.attribute? "agent"
    modified := e.attribute? "modified" }

/-- The drawing on the only page of a diagram file, without the two cells it hangs from. -/
def Diagram.ofElement? (e : Element) : Option (Diagram Float × Metadata) :=
  match e.children with
  | [⟨_, _, [⟨_, _, [⟨_, _, _ :: _ :: cells⟩]⟩]⟩] => do
    return (⟨← cells.mapM Cell.ofElement?⟩, ← Metadata.ofElement? e)
  | _ => none

def Diagram.ofDocument? (text : String) : Option (Diagram Float × Metadata) :=
  (Element.ofDocument? text).bind Diagram.ofElement?

end LineChart
