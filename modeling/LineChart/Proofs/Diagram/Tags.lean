import LineChart.Diagram.Markup
import LineChart.Proofs.Markup.Tags

namespace LineChart

open Markup

/-- The name of a tag and the keys of its attributes. -/
def Markup.Tag.shape (tag : Tag) : String × List String := (tag.1, tag.2.map Prod.fst)

/-- The shapes of the tags in diagram files. -/
def diagramShapes : List (String × List String) :=
  [("mxfile", ["host", "agent", "type"]), ("mxfile", ["host", "modified", "agent", "type"]),
    ("diagram", ["id", "name"]), ("mxGraphModel", modelAttributes.map Prod.fst), ("root", []),
    ("mxCell", ["id"]), ("mxCell", ["id", "parent"]),
    ("mxCell", ["id", "value", "style", "parent", "edge"]),
    ("mxCell", ["id", "value", "style", "vertex", "parent"]), ("mxGeometry", ["relative", "as"]),
    ("mxGeometry", ["x", "y", "width", "height", "as"]), ("mxPoint", ["x", "y", "as"])]

variable {α : Type} [NumberText α]

theorem Placement.shape_mem (p : Placement α) :
    ∀ tag ∈ p.element.tags, tag.shape ∈ diagramShapes := by
  cases p with
  | box x y width height =>
    simp [Placement.element, Element.tags, listTags, Tag.shape, diagramShapes]
  | edge source target =>
    simp [Placement.element, Point.element, Element.tags, listTags, Tag.shape, diagramShapes]

theorem Cell.tags_eq (cell : Cell α) :
    cell.element.tags =
      ("mxCell", [("id", cell.id), ("value", cell.value), ("style", cell.style.text)] ++
        cell.placement.attributes) :: cell.placement.element.tags := by
  simp [Cell.element, Element.tags, listTags]

theorem Cell.shape_mem (cell : Cell α) :
    ∀ tag ∈ cell.element.tags, tag.shape ∈ diagramShapes := by
  rw [cell.tags_eq, List.forall_mem_cons]
  refine ⟨?_, cell.placement.shape_mem⟩
  cases cell.placement <;> simp [Placement.attributes, Tag.shape, diagramShapes]

/-- The tags that a diagram file has in front of its drawing. -/
def headerTags (m : Metadata) : List Tag :=
  [("mxfile", m.attributes), ("diagram", [("id", "diagram-1"), ("name", "Page-1")]),
    ("mxGraphModel", modelAttributes), ("root", []), ("mxCell", [("id", "0")]),
    ("mxCell", [("id", "1"), ("parent", "0")])]

theorem Diagram.tags_eq (d : Diagram α) (m : Metadata) :
    (d.element m).tags = headerTags m ++ d.cells.flatMap fun cell => cell.element.tags := by
  simp [Diagram.element, Diagram.cellElements, anchorElements, headerTags, Element.tags, listTags,
    listTags_eq_flatMap, List.flatMap_map]

theorem Diagram.shape_mem (d : Diagram α) (m : Metadata) :
    ∀ tag ∈ (d.element m).tags, tag.shape ∈ diagramShapes := by
  have hheader : ∀ tag ∈ headerTags m, tag.shape ∈ diagramShapes := by
    obtain ⟨host, agent, modified⟩ := m
    cases modified <;> simp [headerTags, Metadata.attributes, Tag.shape, diagramShapes]
  rw [d.tags_eq, List.forall_mem_append]
  refine ⟨hheader, fun tag hm => ?_⟩
  obtain ⟨cell, -, hcell⟩ := List.mem_flatMap.mp hm
  exact cell.shape_mem tag hcell

end LineChart
