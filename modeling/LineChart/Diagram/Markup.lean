import LineChart.Diagram.Layout
import LineChart.Diagram.Metadata
import LineChart.Markup.Element

namespace LineChart

open Markup

variable {α : Type} [NumberText α]

def Point.element (p : Point α) (role : String) : Element where
  name := "mxPoint"
  attributes := [("x", NumberText.text p.x), ("y", NumberText.text p.y), ("as", role)]

/-- The attributes of a cell that tell an edge from a box. -/
def Placement.attributes : Placement α → List (String × String)
  | .edge _ _ => [("parent", "1"), ("edge", "1")]
  | .box _ _ _ _ => [("vertex", "1"), ("parent", "1")]

def Placement.element : Placement α → Element
  | .edge source target =>
    ⟨"mxGeometry", [("relative", "1"), ("as", "geometry")],
      [source.element "sourcePoint", target.element "targetPoint"]⟩
  | .box x y width height =>
    ⟨"mxGeometry",
      [("x", NumberText.text x), ("y", NumberText.text y), ("width", NumberText.text width),
        ("height", NumberText.text height), ("as", "geometry")], []⟩

def Cell.element (cell : Cell α) : Element where
  name := "mxCell"
  attributes :=
    [("id", cell.id), ("value", cell.value), ("style", cell.style.text)] ++ cell.placement.attributes
  children := [cell.placement.element]

/-- The two cells that every drawing hangs from. -/
def anchorElements : List Element :=
  [⟨"mxCell", [("id", "0")], []⟩, ⟨"mxCell", [("id", "1"), ("parent", "0")], []⟩]

def modelAttributes : List (String × String) :=
  [("dx", "0"), ("dy", "0"), ("grid", "1"), ("gridSize", "10"), ("guides", "1"), ("tooltips", "1"),
    ("connect", "1"), ("arrows", "1"), ("fold", "1"), ("page", "1"), ("pageScale", "1"),
    ("pageWidth", "850"), ("pageHeight", "1100"), ("math", "0"), ("shadow", "0")]

/-- The attributes of a diagram file; the time stamp is left out where there is none. -/
def Metadata.attributes (m : Metadata) : List (String × String) :=
  [("host", m.host)] ++ (m.modified.map ("modified", ·)).toList ++
    [("agent", m.agent), ("type", "device")]

/-- All cells of a diagram file, those that the drawing hangs from first. -/
def Diagram.cellElements (d : Diagram α) : List Element :=
  anchorElements ++ d.cells.map Cell.element

/-- A diagram file with the drawing on its only page. -/
def Diagram.element (d : Diagram α) (m : Metadata) : Element :=
  let root : Element := ⟨"root", [], d.cellElements⟩
  let model : Element := ⟨"mxGraphModel", modelAttributes, [root]⟩
  let page : Element := ⟨"diagram", [("id", "diagram-1"), ("name", "Page-1")], [model]⟩
  ⟨"mxfile", m.attributes, [page]⟩

def Diagram.document (d : Diagram α) (m : Metadata) : String := (d.element m).document

end LineChart
