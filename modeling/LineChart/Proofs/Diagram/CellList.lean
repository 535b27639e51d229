import Mathlib.Data.List.Nodup
import LineChart.Diagram.Markup
import LineChart.Diagram.Reading
import LineChart.Proofs.Diagram.Layout
import LineChart.Proofs.Text.Span

namespace LineChart

open Markup

/-! ## Names -/

/-- What the ids in a diagram file stand for. -/
inductive CellName where
  | page (i : Nat)
  | anchor (i : Nat)
  | verticalAxis
  | horizontalAxis
  | categoryLabel (i : Nat)
  | tickLabel (i : Nat)
  | gridline (i : Nat)
  | segment (i : Nat)
  | marker (i : Nat)
  | title
deriving DecidableEq

namespace CellName

def stem : CellName → String
  | page _ => "diagram-"
  | anchor _ => ""
  | verticalAxis => "axis-y"
  | horizontalAxis => "axis-x"
  | categoryLabel _ => "xlabel-"
  | tickLabel _ => "ylabel-"
  | gridline _ => "grid-"
  | segment _ => "line-"
  | marker _ => "point-"
  | title => "title"

def number? : CellName → Option Nat
  | page i | anchor i | categoryLabel i | tickLabel i | gridline i | segment i | marker i => some i
  | verticalAxis | horizontalAxis | title => none

def numberText : Option Nat → String
  | some i => toString i
  | none => ""

def text (n : CellName) : String := n.stem ++ numberText n.number?

theorem eq_of_stem_of_number? {n n' : CellName} (hs : n.stem = n'.stem)
    (hi : n.number? = n'.number?) : n = n' := by
  cases n <;> cases n' <;> simp_all [stem, number?]

theorem not_isDigit_of_mem_stem (n : CellName) : ∀ c ∈ n.stem.toList, !c.isDigit := by
  rw [← List.all_eq_true]
  cases n <;> simp only [stem] <;> decide

theorem toList_numberText (i : Option Nat) :
    (numberText i).toList = i.elim [] (Nat.toDigits 10) := by
  cases i with
  | none => rfl
  | some i => exact Nat.toList_repr

theorem isDigit_of_mem_numberText (i : Option Nat) : ∀ c ∈ (numberText i).toList, c.isDigit := by
  intro c hc
  rw [toList_numberText] at hc
  cases i with
  | none => exact absurd hc List.not_mem_nil
  | some i => exact Nat.isDigit_of_mem_toDigits (by decide) (by decide) hc

theorem numberText_injective : Function.Injective numberText := by
  intro i j h
  have hdigits := congrArg String.toList h
  rw [toList_numberText, toList_numberText] at hdigits
  cases i with
  | none =>
    cases j with
    | none => rfl
    | some j => exact absurd hdigits.symm Nat.toDigits_ne_nil
  | some i =>
    cases j with
    | none => exact absurd hdigits Nat.toDigits_ne_nil
    | some j =>
      calc
        some i = some (Nat.ofDigitChars 10 (Nat.toDigits 10 i) 0) := by
          rw [Nat.ofDigitChars_ten_toDigits]
        _ = some (Nat.ofDigitChars 10 (Nat.toDigits 10 j) 0) :=
          congrArg (fun digits => some (Nat.ofDigitChars 10 digits 0)) hdigits
        _ = some j := by rw [Nat.ofDigitChars_ten_toDigits]

/-- A name is told by its text: the digits of its number start where its stem ends. -/
theorem text_injective : Function.Injective text := by
  intro n n' h
  have hspan : ∀ n : CellName, n.text.toList.takeWhile (!·.isDigit) = n.stem.toList ∧
      n.text.toList.dropWhile (!·.isDigit) = (numberText n.number?).toList := by
    intro n
    have hhalt : Halts (!·.isDigit) (numberText n.number?).toList := by
      intro c hc
      simp [isDigit_of_mem_numberText _ c (List.mem_of_mem_head? hc)]
    rw [text, String.toList_append]
    exact ⟨takeWhile_append_of_halts n.not_isDigit_of_mem_stem hhalt,
      dropWhile_append_of_halts n.not_isDigit_of_mem_stem hhalt⟩
  apply eq_of_stem_of_number?
  · rw [← String.toList_inj, ← (hspan n).1, h, (hspan n').1]
  · apply numberText_injective
    rw [← String.toList_inj, ← (hspan n).2, h, (hspan n').2]

end CellName

/-! ## The names in a drawing -/

namespace Diagram

open CellName (text)

def tickNames (i : Nat) : List CellName :=
  if i = 0 then [.tickLabel i] else [.tickLabel i, .gridline i]

/-- The marker of a value, after the segment to the point that follows if there is one. -/
def seriesNames (points i : Nat) : List CellName :=
  if i + 1 < points then [.segment i, .marker i] else [.marker i]

/-- The cells of a drawing with so many categories, points and values. -/
def cellNames (categories points values : Nat) : List CellName :=
  [.verticalAxis, .horizontalAxis] ++ (List.range (min categories points)).map .categoryLabel ++
    (List.range (tickSteps + 1)).flatMap tickNames ++
    (List.range (min points values)).flatMap (seriesNames points) ++ [.title]

variable {α : Type} [Scalar α] [NumberText α]

omit [NumberText α] in
@[simp] theorem categoryCell_id (c : Canvas α) (i : Nat) (label : String) (p : Point α) :
    (categoryCell c i label p).id = (CellName.categoryLabel i).text := rfl

@[simp] theorem tickLabel_id (c : Canvas α) (t : Tick α) :
    (tickLabel c t).id = (CellName.tickLabel t.index).text := rfl

omit [NumberText α] in
@[simp] theorem gridline_id (c : Canvas α) (t : Tick α) :
    (gridline c t).id = (CellName.gridline t.index).text := rfl

omit [Scalar α] [NumberText α] in
@[simp] theorem segment_id (i : Nat) (p q : Point α) :
    (segment i p q).id = (CellName.segment i).text := rfl

@[simp] theorem marker_id (i : Nat) (p : Point α) (v : α) :
    (marker i p v).id = (CellName.marker i).text := rfl

omit [NumberText α] in
theorem axisCells_ids (c : Canvas α) :
    (axisCells c).map Cell.id = [CellName.verticalAxis, .horizontalAxis].map text := rfl

omit [NumberText α] in
theorem categoryCells_ids (categories : List String) (plot : Plot α) :
    (categoryCells categories plot).map Cell.id =
      ((List.range (min categories.length plot.points.length)).map
        CellName.categoryLabel).map text := by
  refine List.ext_getElem (by simp [categoryCells]) fun i hi hi' => ?_
  simp [categoryCells]

theorem tickCells_ids (c : Canvas α) (axis : ValueAxis α) :
    (tickCells c (axis.ticks c)).map Cell.id =
      ((List.range (tickSteps + 1)).flatMap tickNames).map text := by
  rw [tickCells, ValueAxis.ticks, List.flatMap_map, List.map_flatMap, List.map_flatMap]
  congr 1
  funext i
  rw [tickNames]
  split <;> rfl

theorem seriesCells_ids (first : Nat) (points : List (Point α)) (series : List α) :
    (seriesCells first points series).map Cell.id =
      ((List.range' first (min points.length series.length)).flatMap
        (seriesNames (first + points.length))).map text := by
  induction points generalizing first series with
  | nil => simp [seriesCells]
  | cons p points ih =>
    cases series with
    | nil => simp [seriesCells]
    | cons v series =>
      have hcount : min (p :: points).length (v :: series).length =
          min points.length series.length + 1 := by simp
      have hlength : first + (p :: points).length = first + 1 + points.length := by
        rw [List.length_cons]
        omega
      rw [seriesCells, hcount, List.range'_succ, List.flatMap_cons, hlength, List.map_append,
        List.map_append, List.map_cons, ih (first + 1) series]
      cases points with
      | nil => simp [seriesNames]
      | cons q points => simp [seriesNames]

/-- The cells of a drawing in the order in which they are painted. -/
theorem cells_ids (chart : Chart α) (plot : Plot α) :
    (chart.diagram plot).cells.map Cell.id =
      (cellNames chart.categories.length plot.points.length chart.series.length).map text := by
  have hseries := seriesCells_ids 0 plot.points chart.series
  rw [Nat.zero_add, ← List.range_eq_range'] at hseries
  rw [Chart.diagram, cellNames]
  simp only [List.map_append, axisCells_ids, categoryCells_ids, tickCells_ids, hseries]
  rfl

/-- Names without repetition whose stems are among those listed. -/
def DistinctOf (stems : List String) (names : List CellName) : Prop :=
  names.Nodup ∧ ∀ n ∈ names, n.stem ∈ stems

theorem DistinctOf.append {stems stems' : List String} {names names' : List CellName}
    (h : DistinctOf stems names) (h' : DistinctOf stems' names')
    (hdisjoint : ∀ s ∈ stems, s ∉ stems') : DistinctOf (stems ++ stems') (names ++ names') := by
  refine ⟨List.nodup_append'.mpr ⟨h.1, h'.1, fun n hn hn' => ?_⟩, fun n hn => ?_⟩
  · exact hdisjoint _ (h.2 n hn) (h'.2 n hn')
  · rcases List.mem_append.mp hn with hn | hn
    · exact List.mem_append_left _ (h.2 n hn)
    · exact List.mem_append_right _ (h'.2 n hn)

theorem distinctOf_categoryNames (count : Nat) :
    DistinctOf ["xlabel-"] ((List.range count).map CellName.categoryLabel) := by
  refine ⟨List.nodup_range.map fun i j h => by simpa using h, fun n hn => ?_⟩
  obtain ⟨i, -, rfl⟩ := List.mem_map.mp hn
  exact List.mem_singleton.mpr rfl

theorem distinctOf_seriesNames (points values : Nat) :
    DistinctOf ["line-", "point-"] ((List.range values).flatMap (seriesNames points)) := by
  have hname : ∀ i, ∀ n ∈ seriesNames points i, n = .segment i ∨ n = .marker i := by
    intro i n hn
    rw [seriesNames] at hn
    split at hn
    · simpa using hn
    · exact .inr (by simpa using hn)
  have hnumber : ∀ i, ∀ n ∈ seriesNames points i, n.number? = some i := by
    intro i n hn
    rcases hname i n hn with rfl | rfl <;> rfl
  refine ⟨List.nodup_flatMap.mpr ⟨fun i _ => ?_, ?_⟩, fun n hn => ?_⟩
  · rw [seriesNames]
    split <;> simp
  · refine List.nodup_range.imp fun {i j} hne n hi hj => hne ?_
    exact Option.some.inj ((hnumber i n hi).symm.trans (hnumber j n hj))
  · obtain ⟨i, -, hi⟩ := List.mem_flatMap.mp hn
    rcases hname i n hi with rfl | rfl <;> simp [CellName.stem]

/-- No two cells have one name, and none has that of the page. -/
theorem nodup_cellNames (categories points values : Nat) :
    (.page 1 :: .anchor 0 :: .anchor 1 :: cellNames categories points values).Nodup := by
  have hfront : DistinctOf ["diagram-", "", "axis-y", "axis-x"]
      [.page 1, .anchor 0, .anchor 1, .verticalAxis, .horizontalAxis] := by
    exact ⟨by decide, by decide⟩
  have hticks : DistinctOf ["ylabel-", "grid-"]
      ((List.range (tickSteps + 1)).flatMap tickNames) := ⟨by decide, by decide⟩
  have htitle : DistinctOf ["title"] [.title] := ⟨by decide, by decide⟩
  have hlabels := hfront.append (distinctOf_categoryNames (min categories points))
    (by decide)
  have hseries := (hlabels.append hticks (by decide)).append
    (distinctOf_seriesNames points (min points values)) (by decide)
  exact (hseries.append htitle (by decide)).1

end Diagram

/-! ## Cells of a graph -/

/-- The element of a box has a place and a size. -/
structure Markup.Element.IsVertex (e : Element) : Prop where
  marked : e.attribute? "vertex" = some "1" ∧ e.attribute? "edge" = none
  geometry : ∃ g : Element, e.children = [g] ∧ g.name = "mxGeometry" ∧
    ∀ key ∈ ["x", "y", "width", "height"], (g.attribute? key).isSome

/-- The element of an edge has a point at either end. -/
structure Markup.Element.IsEdge (e : Element) : Prop where
  marked : e.attribute? "edge" = some "1" ∧ e.attribute? "vertex" = none
  geometry : ∃ g source target : Element, e.children = [g] ∧ g.name = "mxGeometry" ∧
    g.children = [source, target] ∧ source.attribute? "as" = some "sourcePoint" ∧
    target.attribute? "as" = some "targetPoint"

/-- The cells on a page make up a graph: each has an id of its own, hangs from a cell in front of it
unless it is the first, and is either a box or an edge behind the two anchors. -/
structure IsCellList (page : Element) (cells : List Element) : Prop where
  named : ∀ e ∈ cells, (e.attribute? "id").isSome
  distinct : ((page :: cells).map (·.attribute? "id")).Nodup
  anchored : ∀ (i : Nat) (e : Element), cells[i]? = some e → e.attribute? "id" ≠ some "0" →
    ∃ (j : Nat) (parent : Element) (id : String), j < i ∧ cells[j]? = some parent ∧
      parent.attribute? "id" = some id ∧ e.attribute? "parent" = some id
  drawn : ∀ e ∈ cells.drop 2, e.IsVertex ∨ e.IsEdge

section

variable {α : Type} [NumberText α]

theorem Cell.attribute?_id (cell : Cell α) : cell.element.attribute? "id" = some cell.id := rfl

theorem Cell.attribute?_parent (cell : Cell α) : cell.element.attribute? "parent" = some "1" := by
  obtain ⟨id, value, style, placement⟩ := cell
  cases placement <;> rfl

theorem Cell.isVertex_or_isEdge (cell : Cell α) : cell.element.IsVertex ∨ cell.element.IsEdge := by
  obtain ⟨id, value, style, placement⟩ := cell
  cases placement with
  | box x y width height =>
    refine .inl ⟨⟨rfl, rfl⟩, _, rfl, rfl, ?_⟩
    simp only [List.forall_mem_cons]
    exact ⟨rfl, rfl, rfl, rfl, fun _ h => absurd h List.not_mem_nil⟩
  | edge source target => exact .inr ⟨⟨rfl, rfl⟩, _, _, _, rfl, rfl, rfl, rfl, rfl⟩

/-- Every cell but the first hangs from one of the two anchors, and they are in front. -/
theorem Diagram.cellElements_anchored (d : Diagram α) (i : Nat) (e : Element)
    (he : d.cellElements[i]? = some e) (h : e.attribute? "id" ≠ some "0") :
    ∃ (j : Nat) (parent : Element) (id : String), j < i ∧ d.cellElements[j]? = some parent ∧
      parent.attribute? "id" = some id ∧ e.attribute? "parent" = some id := by
  match i with
  | 0 =>
    obtain rfl := Option.some.inj he
    exact absurd rfl h
  | 1 =>
    obtain rfl := Option.some.inj he
    exact ⟨0, _, "0", Nat.zero_lt_one, rfl, rfl, rfl⟩
  | i + 2 =>
    obtain ⟨cell, -, rfl⟩ : ∃ cell ∈ d.cells, cell.element = e :=
      List.mem_map.mp (List.mem_of_getElem? (l := d.cells.map Cell.element) he)
    exact ⟨1, _, "1", Nat.lt_add_left i Nat.one_lt_two, rfl, rfl, cell.attribute?_parent⟩

end

theorem Diagram.nodup_cells_ids {α : Type} [Scalar α] [NumberText α] (chart : Chart α)
    (plot : Plot α) : ((chart.diagram plot).cells.map Cell.id).Nodup := by
  have hnames := nodup_cellNames chart.categories.length plot.points.length chart.series.length
  rw [cells_ids]
  exact hnames.of_cons.of_cons.of_cons.map CellName.text_injective

/-- With a key that does not come twice, the first element that has it is the only one. -/
theorem find?_of_nodup_map {α β : Type} [DecidableEq β] {f : α → β} {as : List α}
    (h : (as.map f).Nodup) {a : α} (ha : a ∈ as) {b : β} (hb : f a = b) :
    as.find? (fun x => f x = b) = some a := by
  subst hb
  induction as with
  | nil => exact absurd ha List.not_mem_nil
  | cons d as ih =>
    obtain ⟨hd, has⟩ := List.nodup_cons.mp h
    rcases List.mem_cons.mp ha with rfl | ha
    · exact List.find?_cons_of_pos (by simp)
    · have hne : f d ≠ f a := fun heq => hd (heq ▸ List.mem_map_of_mem ha)
      rw [List.find?_cons_of_neg (by simpa using hne)]
      exact ih has ha

/-- The ids on a page are the names of its cells. -/
theorem Chart.cellElements_ids {α : Type} [Scalar α] [NumberText α] (chart : Chart α)
    (plot : Plot α) :
    (chart.diagram plot).cellElements.map (·.attribute? "id") =
      ((.anchor 0 :: .anchor 1 :: Diagram.cellNames chart.categories.length plot.points.length
        chart.series.length).map fun n => some n.text) := by
  have hcells : ((chart.diagram plot).cells.map Cell.element).map (·.attribute? "id") =
      ((chart.diagram plot).cells.map Cell.id).map some := by
    rw [List.map_map, List.map_map]
    rfl
  rw [Diagram.cellElements, List.map_append, hcells, Diagram.cells_ids, List.map_map]
  rfl

theorem Chart.exists_name_of_mem {α : Type} [Scalar α] [NumberText α] (chart : Chart α)
    (plot : Plot α) {e : Element} (h : e ∈ (chart.diagram plot).cellElements) :
    ∃ n ∈ .anchor 0 :: .anchor 1 :: Diagram.cellNames chart.categories.length plot.points.length
      chart.series.length, e.attribute? "id" = some n.text := by
  have hid : e.attribute? "id" ∈ (chart.diagram plot).cellElements.map (·.attribute? "id") :=
    List.mem_map_of_mem h
  rw [chart.cellElements_ids plot] at hid
  obtain ⟨n, hn, heq⟩ := List.mem_map.mp hid
  exact ⟨n, hn, heq.symm⟩

/-- No two cells on a page have one id, and none has that of the page. -/
theorem Chart.nodup_ids {α : Type} [Scalar α] [NumberText α] (chart : Chart α) (plot : Plot α) :
    (some (CellName.page 1).text ::
      (chart.diagram plot).cellElements.map (·.attribute? "id")).Nodup := by
  have hinjective : Function.Injective fun n : CellName => some n.text :=
    fun _ _ h => CellName.text_injective (Option.some.inj h)
  rw [chart.cellElements_ids plot]
  exact (Diagram.nodup_cellNames _ _ _).map hinjective

/-- The cells of a diagram file make up a graph. -/
theorem Chart.element_isCellList {α : Type} [Scalar α] [NumberText α] (chart : Chart α)
    (plot : Plot α) (m : Metadata) :
    ∃ page model root : Element,
      ((chart.diagram plot).element m).children = [page] ∧
      page.attribute? "id" = some "diagram-1" ∧ page.children = [model] ∧
      model.children = [root] ∧ root.name = "root" ∧
      root.children = anchorElements ++ (chart.diagram plot).cells.map Cell.element ∧
      IsCellList page root.children := by
  refine ⟨_, _, _, rfl, rfl, rfl, rfl, rfl, rfl, ?_⟩
  refine ⟨fun e he => ?_, chart.nodup_ids plot, Diagram.cellElements_anchored _, fun e he => ?_⟩
  · obtain ⟨n, -, hid⟩ := chart.exists_name_of_mem plot he
    rw [hid, Option.isSome_some]
  · obtain ⟨cell, -, rfl⟩ := List.mem_map.mp
      (show e ∈ (chart.diagram plot).cells.map Cell.element from he)
    exact cell.isVertex_or_isEdge

end LineChart
