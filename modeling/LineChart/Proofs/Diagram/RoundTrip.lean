import LineChart.Diagram.Markup
import LineChart.Diagram.Reading
import LineChart.Proofs.Diagram.Tags
import LineChart.Proofs.Markup.RoundTrip
import LineChart.Proofs.Number.Spelling

namespace LineChart

open Markup
open Number (Format unsignZero)

/-! ## Zeros without a sign -/

def Point.unsignZeros (p : Point Float) : Point Float := ⟨unsignZero p.x, unsignZero p.y⟩

def Placement.unsignZeros : Placement Float → Placement Float
  | .box x y width height =>
    .box (unsignZero x) (unsignZero y) (unsignZero width) (unsignZero height)
  | .edge source target => .edge source.unsignZeros target.unsignZeros

def Cell.unsignZeros (cell : Cell Float) : Cell Float :=
  { cell with placement := cell.placement.unsignZeros }

/-- The diagram without the signs of its zeros. -/
def Diagram.unsignZeros (d : Diagram Float) : Diagram Float := ⟨d.cells.map Cell.unsignZeros⟩

/-! ## Names -/

theorem Diagram.clean_element (d : Diagram Float) (m : Metadata) : (d.element m).Clean := by
  have hshapes : ∀ shape ∈ diagramShapes, IsName shape.1 ∧ ∀ key ∈ shape.2, IsName key := by
    decide +kernel
  refine Element.clean_of_tags _ fun tag hm => ?_
  obtain ⟨hname, hkeys⟩ := hshapes _ (d.shape_mem m tag hm)
  exact ⟨hname, fun _ he => hkeys _ (List.mem_map_of_mem he)⟩

/-! ## Reading cells back -/

theorem number?_eq {e : Element} {key : String} {v : Float}
    (h : e.attribute? key = some (NumberText.text v)) : e.number? key = some (unsignZero v) := by
  have htext : (NumberText.text v).toList = Format.diagram.chars v := String.toList_ofList
  rw [Element.number?, h, Option.map_some, htext, Number.ofToken_chars]

theorem Point.ofElement?_element (p : Point Float) (role : String) :
    Point.ofElement? (p.element role) = some p.unsignZeros := by
  have hx : (p.element role).number? "x" = some (unsignZero p.x) := number?_eq rfl
  have hy : (p.element role).number? "y" = some (unsignZero p.y) := number?_eq rfl
  rw [Point.ofElement?, hx, hy]
  rfl

theorem Placement.ofElement?_element (p : Placement Float) :
    Placement.ofElement? p.element = some p.unsignZeros := by
  cases p with
  | box x y width height =>
    have hx : (Placement.box x y width height).element.number? "x" = some (unsignZero x) :=
      number?_eq rfl
    have hy : (Placement.box x y width height).element.number? "y" = some (unsignZero y) :=
      number?_eq rfl
    have hwidth : (Placement.box x y width height).element.number? "width" =
        some (unsignZero width) := number?_eq rfl
    have hheight : (Placement.box x y width height).element.number? "height" =
        some (unsignZero height) := number?_eq rfl
    change (do
      return Placement.box (← (Placement.box x y width height).element.number? "x")
        (← (Placement.box x y width height).element.number? "y")
        (← (Placement.box x y width height).element.number? "width")
        (← (Placement.box x y width height).element.number? "height")) = _
    rw [hx, hy, hwidth, hheight]
    rfl
  | edge source target =>
    have hs := source.ofElement?_element "sourcePoint"
    have ht := target.ofElement?_element "targetPoint"
    rw [Placement.element, Placement.ofElement?]
    simp only [hs, ht]
    rfl

theorem Cell.ofElement?_element (cell : Cell Float) :
    Cell.ofElement? cell.element = some cell.unsignZeros := by
  have hp := cell.placement.ofElement?_element
  rw [Cell.element, Cell.ofElement?]
  simp only [hp]
  rfl

theorem mapM_ofElement?_element (cells : List (Cell Float)) :
    (cells.map Cell.element).mapM Cell.ofElement? = some (cells.map Cell.unsignZeros) := by
  induction cells with
  | nil => rfl
  | cons cell cells ih =>
    rw [List.map_cons, List.mapM_cons, cell.ofElement?_element, ih]
    rfl

theorem Metadata.ofElement?_element (d : Diagram Float) (m : Metadata) :
    Metadata.ofElement? (d.element m) = some m := by
  obtain ⟨host, agent, modified⟩ := m
  cases modified <;> rfl

theorem Diagram.ofElement?_element (d : Diagram Float) (m : Metadata) :
    Diagram.ofElement? (d.element m) = some (d.unsignZeros, m) := by
  have hcells := mapM_ofElement?_element d.cells
  have hm := Metadata.ofElement?_element d m
  change (do
    return ((⟨← (d.cells.map Cell.element).mapM Cell.ofElement?⟩ : Diagram Float),
      ← Metadata.ofElement? (d.element m))) = _
  rw [hcells, hm]
  rfl

/-! ## The document does not show the signs of zeros -/

theorem text_unsignZero (v : Float) : NumberText.text (unsignZero v) = NumberText.text v :=
  congrArg String.ofList (Number.chars_unsignZero v)

theorem Point.element_unsignZeros (p : Point Float) (role : String) :
    p.unsignZeros.element role = p.element role := by
  simp only [Point.element, Point.unsignZeros, text_unsignZero]

theorem Cell.element_unsignZeros (cell : Cell Float) : cell.unsignZeros.element = cell.element := by
  obtain ⟨id, value, style, placement⟩ := cell
  cases placement with
  | box x y width height =>
    simp only [Cell.element, Cell.unsignZeros, Placement.unsignZeros, Placement.element,
      Placement.attributes, text_unsignZero]
  | edge source target =>
    simp only [Cell.element, Cell.unsignZeros, Placement.unsignZeros, Placement.element,
      Placement.attributes, Point.element_unsignZeros]

theorem Diagram.document_unsignZeros (d : Diagram Float) (m : Metadata) :
    d.unsignZeros.document m = d.document m := by
  have hcells : d.unsignZeros.cellElements = d.cellElements := by
    rw [Diagram.cellElements, Diagram.cellElements, Diagram.unsignZeros, List.map_map]
    congr 1
    exact List.map_congr_left fun cell _ => cell.element_unsignZeros
  rw [Diagram.document, Diagram.document, Diagram.element, Diagram.element, hcells]

/-! ## Documents -/

/-- A diagram file tells everything about its drawing and its making, but for the signs of zeros:
it is read back as it was written, so that two files are equal only if all they tell is. -/
theorem Diagram.document_lossless :
    (∀ (d : Diagram Float) (m : Metadata),
      Diagram.ofDocument? (d.document m) = some (d.unsignZeros, m)) ∧
    ∀ (d d' : Diagram Float) (m m' : Metadata),
      d.document m = d'.document m' ↔ d.unsignZeros = d'.unsignZeros ∧ m = m' := by
  have hread : ∀ (d : Diagram Float) (m : Metadata),
      Diagram.ofDocument? (d.document m) = some (d.unsignZeros, m) := by
    intro d m
    rw [Diagram.ofDocument?, Diagram.document, Element.ofDocument?_document (d.clean_element m),
      Option.bind_some, d.ofElement?_element]
  refine ⟨hread, fun d d' m m' => ⟨fun h => ?_, fun ⟨hd, hm⟩ => ?_⟩⟩
  · have hboth := (hread d m).symm.trans ((congrArg _ h).trans (hread d' m'))
    simpa using hboth
  · rw [← d.document_unsignZeros, hd, hm, d'.document_unsignZeros]

end LineChart
