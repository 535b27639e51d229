import LineChart.Conversion
import LineChart.Proofs.Chart.Lines
import LineChart.Proofs.Diagram.CellList
import LineChart.Proofs.Diagram.Tags
import LineChart.Proofs.Markup.Conformance
import LineChart.Proofs.Number.Spelling

namespace LineChart

open Markup Markup.Grammar

theorem Diagram.validTag_of_mem {α : Type} [NumberText α] (d : Diagram α) (m : Metadata) :
    ∀ tag ∈ (d.element m).tags, ValidTag tag := by
  have hshapes : ∀ shape ∈ diagramShapes, Grammar.IsName shape.1 ∧
      (∀ key ∈ shape.2, Grammar.IsName key) ∧ shape.2.Nodup := by decide
  intro tag hm
  obtain ⟨hname, hkeys, hnodup⟩ := hshapes _ (d.shape_mem m tag hm)
  exact ⟨hname, fun _ he => hkeys _ (List.mem_map_of_mem he), hnodup⟩

/-! ## Characters -/

theorem onlyChars_of_visible {s : List Char} (h : ∀ c ∈ s, 0x21 ≤ c.toNat ∧ c.toNat ≤ 0x7E) :
    OnlyChars s := by
  intro c hc
  have hvisible := h c hc
  simp [isChar, charRanges, Text.inRanges]
  omega

theorem onlyChars_numberText (v : Float) : OnlyChars (NumberText.text v).toList := by
  have htext : (NumberText.text v).toList = Number.Format.diagram.chars v := String.toList_ofList
  rw [htext]
  exact onlyChars_of_visible fun c hc =>
    Number.toNat_of_isNumberChar (Number.isNumberChar_of_mem_chars v c hc)

theorem Point.valuesOnlyChars (p : Point Float) {role : String} (h : OnlyChars role.toList) :
    ValuesOnlyChars (p.element role).tags := by
  simp only [Point.element, Element.tags, listTags, ValuesOnlyChars, List.forall_mem_cons]
  exact ⟨⟨onlyChars_numberText p.x, onlyChars_numberText p.y, h, List.forall_mem_nil _⟩,
    List.forall_mem_nil _⟩

theorem Placement.valuesOnlyChars (p : Placement Float) : ValuesOnlyChars p.element.tags := by
  cases p with
  | box x y width height =>
    simp only [Placement.element, Element.tags, listTags, ValuesOnlyChars, List.forall_mem_cons]
    exact ⟨⟨onlyChars_numberText x, onlyChars_numberText y, onlyChars_numberText width,
      onlyChars_numberText height, by decide, List.forall_mem_nil _⟩, List.forall_mem_nil _⟩
  | edge source target =>
    have hs := source.valuesOnlyChars (show OnlyChars "sourcePoint".toList by decide)
    have ht := target.valuesOnlyChars (show OnlyChars "targetPoint".toList by decide)
    rw [Placement.element, Element.tags, valuesOnlyChars_cons, listTags, listTags, listTags,
      List.append_nil, valuesOnlyChars_append]
    exact ⟨by decide, hs, ht⟩

/-- The texts that a cell brings into a file. -/
def Cell.Legible {α : Type} (cell : Cell α) : Prop :=
  OnlyChars cell.id.toList ∧ OnlyChars cell.value.toList ∧
    OnlyChars cell.style.text.toList

theorem Cell.valuesOnlyChars_iff (cell : Cell Float) :
    ValuesOnlyChars cell.element.tags ↔ cell.Legible := by
  have hplacement : ∀ entry ∈ cell.placement.attributes, OnlyChars entry.2.toList := by
    cases cell.placement <;> simp only [Placement.attributes] <;> decide
  have hown : (∀ entry ∈ [("id", cell.id), ("value", cell.value), ("style", cell.style.text)],
      OnlyChars entry.2.toList) ↔ cell.Legible := by
    simp [Cell.Legible]
  rw [cell.tags_eq, valuesOnlyChars_cons, List.forall_mem_append, hown, and_iff_left hplacement,
    and_iff_left cell.placement.valuesOnlyChars]

theorem Diagram.valuesOnlyChars_iff (d : Diagram Float) {m : Metadata}
    (hm : ∀ entry ∈ m.attributes, OnlyChars entry.2.toList) :
    ValuesOnlyChars (d.element m).tags ↔ ∀ cell ∈ d.cells, cell.Legible := by
  have hheader : ValuesOnlyChars (headerTags m) := by
    rw [headerTags, valuesOnlyChars_cons]
    exact ⟨hm, by unfold ValuesOnlyChars; decide⟩
  have hcells : ValuesOnlyChars (d.cells.flatMap fun cell => cell.element.tags) ↔
      ∀ cell ∈ d.cells, ValuesOnlyChars cell.element.tags := List.forall_mem_flatMap
  rw [d.tags_eq, valuesOnlyChars_append, hcells]
  simp only [hheader, true_and, Cell.valuesOnlyChars_iff]

/-! ## The cells of a chart -/

theorem CellName.visible_text (n : CellName) :
    ∀ c ∈ n.text.toList, 0x21 ≤ c.toNat ∧ c.toNat ≤ 0x7E := by
  have hstem : n.stem.toList.all fun c => 0x21 ≤ c.toNat && c.toNat ≤ 0x7E := by
    cases n <;> simp only [CellName.stem] <;> decide
  rw [CellName.text, String.toList_append, List.forall_mem_append]
  refine ⟨fun c hc => by simpa using List.all_eq_true.mp hstem c hc, fun c hc => ?_⟩
  have hdigit : 48 ≤ c.toNat ∧ c.toNat ≤ 57 :=
    Char.isDigit_iff_toNat.mp (CellName.isDigit_of_mem_numberText _ c hc)
  omega

namespace Style

theorem onlyChars_flag {s : Style} {name : String} :
    OnlyChars (s.flag name).text.toList ↔
      OnlyChars s.text.toList ∧ OnlyChars name.toList := by
  have hend : OnlyChars ";".toList := by decide
  simp only [flag, String.toList_append, onlyChars_append, hend, and_true]

theorem onlyChars_set {β : Type} [StyleValue β] {s : Style} {key : String} {value : β} :
    OnlyChars (s.set key value).text.toList ↔
      OnlyChars s.text.toList ∧ OnlyChars key.toList ∧
        OnlyChars (StyleValue.text value).toList := by
  have hmarks : OnlyChars "=".toList ∧ OnlyChars ";".toList := by decide
  simp only [set, String.toList_append, onlyChars_append, hmarks, and_true, and_assoc]

theorem onlyChars_unterminated {s : Style} (h : OnlyChars s.text.toList) :
    OnlyChars s.unterminated.text.toList := by
  rw [unterminated]
  split
  · rw [String.toList_ofList]
    exact fun c hc => h c (List.mem_of_mem_dropLast hc)
  · exact h

end Style

def diagramStyles : List Style :=
  [.axis, .gridline, .dataLine, .marker, .title, .textBox .center .top, .textBox .right .middle]

theorem onlyChars_of_mem_diagramStyles {style : Style} (h : style ∈ diagramStyles) :
    OnlyChars style.text.toList := by
  have htextBox : ∀ (align : Align) (vertical : VerticalAlign),
      OnlyChars (Style.textBox align vertical).text.toList := by
    intro align vertical
    simp only [Style.textBox, Style.onlyChars_set, Style.onlyChars_flag]
    cases align <;> cases vertical <;> decide
  have htitle : OnlyChars Style.title.text.toList := by
    refine Style.onlyChars_unterminated ?_
    simp only [Style.onlyChars_set, htextBox]
    decide
  revert style
  simp only [diagramStyles, List.forall_mem_cons, htextBox, htitle, Style.axis, Style.gridline,
    Style.dataLine, Style.marker, Style.onlyChars_set, Style.onlyChars_flag]
  decide

/-- Names and styles are no obstacle. -/
theorem Cell.legible_iff {cell : Cell Float} (n : CellName) (hid : cell.id = n.text)
    (hstyle : cell.style ∈ diagramStyles) :
    cell.Legible ↔ OnlyChars cell.value.toList := by
  have hname : OnlyChars cell.id.toList := hid ▸ onlyChars_of_visible n.visible_text
  rw [Cell.Legible, and_iff_right hname, and_iff_left (onlyChars_of_mem_diagramStyles hstyle)]

namespace Diagram

theorem legible_axisCells (c : Canvas Float) : ∀ cell ∈ axisCells c, cell.Legible := by
  have hempty : OnlyChars "".toList := by decide
  simp only [axisCells, List.forall_mem_cons]
  exact ⟨(Cell.legible_iff .verticalAxis rfl (by simp [diagramStyles])).mpr hempty,
    (Cell.legible_iff .horizontalAxis rfl (by simp [diagramStyles])).mpr hempty,
    List.forall_mem_nil _⟩

theorem legible_categoryCells (categories : List String) (plot : Plot Float) :
    (∀ cell ∈ categoryCells categories plot, cell.Legible) ↔
      ∀ label ∈ categories.take plot.points.length, OnlyChars label.toList := by
  have hcell : ∀ (i : Nat) (label : String) (p : Point Float),
      (categoryCell plot.canvas i label p).Legible ↔ OnlyChars label.toList :=
    fun i label p => Cell.legible_iff (.categoryLabel i) rfl (by simp [diagramStyles, categoryCell])
  have hlabels : (categories.zip plot.points).map Prod.fst =
      categories.take plot.points.length :=
    List.ext_getElem (by simp [Nat.min_comm]) fun i hi hi' => by simp
  rw [← hlabels, List.forall_mem_map]
  constructor
  · intro h entry he
    obtain ⟨i, hi, rfl⟩ := List.getElem_of_mem he
    exact (hcell i _ _).mp (h _ (List.mem_mapIdx.mpr ⟨i, hi, rfl⟩))
  · intro h cell hm
    obtain ⟨i, hi, rfl⟩ := List.mem_mapIdx.mp hm
    exact (hcell i _ _).mpr (h _ (List.getElem_mem hi))

theorem legible_tickCells (c : Canvas Float) (ticks : List (Tick Float)) :
    ∀ cell ∈ tickCells c ticks, cell.Legible := by
  have hlabel : ∀ t : Tick Float, (tickLabel c t).Legible := fun t =>
    (Cell.legible_iff (.tickLabel t.index) rfl (by simp [diagramStyles, tickLabel])).mpr
      (onlyChars_numberText t.value)
  have hgridline : ∀ t : Tick Float, (gridline c t).Legible := fun t =>
    (Cell.legible_iff (.gridline t.index) rfl (by simp [diagramStyles, gridline])).mpr
      (show OnlyChars "".toList by decide)
  intro cell hm
  obtain ⟨t, -, hcell⟩ := List.mem_flatMap.mp hm
  split at hcell
  · rw [List.mem_singleton.mp hcell]
    exact hlabel t
  · rcases List.mem_pair.mp hcell with rfl | rfl
    · exact hlabel t
    · exact hgridline t

theorem legible_seriesCells (first : Nat) (points : List (Point Float)) (series : List Float) :
    ∀ cell ∈ seriesCells first points series, cell.Legible := by
  have hsegment : ∀ (i : Nat) (p q : Point Float), (segment i p q).Legible := fun i p q =>
    (Cell.legible_iff (.segment i) rfl (by simp [diagramStyles, segment])).mpr
      (show OnlyChars "".toList by decide)
  have hmarker : ∀ (i : Nat) (p : Point Float) (v : Float), (marker i p v).Legible := fun i p v =>
    (Cell.legible_iff (.marker i) rfl (by simp [diagramStyles, marker])).mpr
      (onlyChars_numberText v)
  induction points generalizing first series with
  | nil => simp [seriesCells]
  | cons p points ih =>
    cases series with
    | nil => simp [seriesCells]
    | cons v series =>
      rw [seriesCells, List.forall_mem_append, List.forall_mem_cons]
      refine ⟨fun cell hm => ?_, hmarker first p v, ih (first + 1) series⟩
      obtain ⟨q, -, rfl⟩ := Option.map_eq_some_iff.mp (Option.mem_toList.mp hm)
      exact hsegment first p q

end Diagram

/-- Only the texts that the author of a chart wrote decide. -/
theorem Chart.legible_cells_iff (chart : Chart Float) (plot : Plot Float) :
    (∀ cell ∈ (chart.diagram plot).cells, cell.Legible) ↔
      OnlyChars chart.title.toList ∧
        ∀ label ∈ chart.categories.take plot.points.length, OnlyChars label.toList := by
  have htitle : (Diagram.titleCell plot.canvas chart.title).Legible ↔
      OnlyChars chart.title.toList :=
    Cell.legible_iff .title rfl (by simp [diagramStyles, Diagram.titleCell])
  have haxes := Diagram.legible_axisCells plot.canvas
  have hticks := Diagram.legible_tickCells plot.canvas (chart.valueAxis.ticks plot.canvas)
  have hseries := Diagram.legible_seriesCells 0 plot.points chart.series
  rw [Chart.diagram, List.forall_mem_append, List.forall_mem_append, List.forall_mem_append,
    List.forall_mem_append, List.forall_mem_singleton, htitle, Diagram.legible_categoryCells,
    and_iff_right haxes, and_iff_left hticks, and_iff_left hseries, and_comm]

/-! ## The texts that are shown -/

theorem Markup.Element.attribute?_mapValues (f : String → String) (e : Element) (key : String) :
    (e.mapValues f).attribute? key = (e.attribute? key).map f := by
  obtain ⟨name, attributes, children⟩ := e
  rw [Element.mapValues, Element.attribute?, Element.attribute?]
  induction attributes with
  | nil => rfl
  | cons entry attributes ih =>
    rw [List.map_cons, List.lookup_cons, List.lookup_cons, Prod.map_fst, id]
    split
    · rfl
    · exact ih

/-- Where no id changes, every cell shows its text changed. -/
theorem Diagram.shownText?_mapValues {α : Type} [NumberText α] (d : Diagram α) (m : Metadata)
    {f : String → String}
    (hids : ∀ e ∈ d.cellElements, (e.attribute? "id").map f = e.attribute? "id") (id : String) :
    ((d.element m).mapValues f).shownText? id = ((d.element m).shownText? id).map f := by
  have hpage : (d.element m).pageCells = d.cellElements := rfl
  have hcells : ((d.element m).mapValues f).pageCells =
      d.cellElements.map (Element.mapValues f) := by
    rw [← listMapValues_eq_map]
    rfl
  have hfind : d.cellElements.find? ((fun e => decide (e.attribute? "id" = some id)) ∘
      Element.mapValues f) = d.cellElements.find? (·.attribute? "id" = some id) := by
    refine List.find?_congr fun e he => ?_
    rw [Function.comp_apply, e.attribute?_mapValues, hids e he]
  rw [Element.shownText?, Element.shownText?, hcells, List.find?_map, hfind, hpage]
  cases d.cellElements.find? (·.attribute? "id" = some id) with
  | none => rfl
  | some e => exact e.attribute?_mapValues f "value"

namespace Chart

variable {α : Type} [Scalar α] [NumberText α] (chart : Chart α) (plot : Plot α) (m : Metadata)

theorem shownText?_of_mem {cell : Cell α} (h : cell ∈ (chart.diagram plot).cells) :
    ((chart.diagram plot).element m).shownText? cell.id = some cell.value := by
  have he : cell.element ∈ (chart.diagram plot).cellElements :=
    List.mem_append_right _ (List.mem_map_of_mem h)
  have hfind := find?_of_nodup_map (chart.nodup_ids plot).of_cons he cell.attribute?_id
  have hpage : ((chart.diagram plot).element m).pageCells = (chart.diagram plot).cellElements := rfl
  rw [Element.shownText?, hpage, hfind]
  rfl

theorem shownText?_title :
    ((chart.diagram plot).element m).shownText? "title" = some chart.title := by
  have hmem : Diagram.titleCell plot.canvas chart.title ∈ (chart.diagram plot).cells :=
    List.mem_append_right _ List.mem_cons_self
  exact chart.shownText?_of_mem plot m hmem

end Chart

theorem Diagram.lt_of_categoryLabel_mem {i categories points values : Nat}
    (h : CellName.categoryLabel i ∈ cellNames categories points values) :
    i < min categories points := by
  have hticks : CellName.categoryLabel i ∉ (List.range (tickSteps + 1)).flatMap tickNames := by
    intro hm
    obtain ⟨j, -, hj⟩ := List.mem_flatMap.mp hm
    rw [tickNames] at hj
    split at hj <;> simp at hj
  have hseries : CellName.categoryLabel i ∉
      (List.range (min points values)).flatMap (seriesNames points) := by
    intro hm
    obtain ⟨j, -, hj⟩ := List.mem_flatMap.mp hm
    rw [seriesNames] at hj
    split at hj <;> simp at hj
  simpa [cellNames, hticks, hseries] using h

/-- A category is shown if it has a point. -/
theorem Chart.shownText?_categoryLabel {α : Type} [Scalar α] [NumberText α] (chart : Chart α)
    (plot : Plot α) (m : Metadata) (i : Nat) :
    ((chart.diagram plot).element m).shownText? s!"xlabel-{i}" =
      (chart.categories.take plot.points.length)[i]? := by
  by_cases hi : i < min chart.categories.length plot.points.length
  · have hcategories : i < chart.categories.length := by omega
    have hpoints : i < plot.points.length := by omega
    have hmem : Diagram.categoryCell plot.canvas i chart.categories[i] plot.points[i] ∈
        (chart.diagram plot).cells := by
      refine List.mem_append_left _ (List.mem_append_left _ (List.mem_append_left _
        (List.mem_append_right _ (List.mem_mapIdx.mpr ⟨i, by simpa using hi, ?_⟩))))
      rw [List.getElem_zip]
    rw [List.getElem?_take_of_lt hpoints, List.getElem?_eq_getElem hcategories]
    exact chart.shownText?_of_mem plot m hmem
  · have hnone : (chart.diagram plot).cellElements.find?
        (·.attribute? "id" = some s!"xlabel-{i}") = none := by
      rw [List.find?_eq_none]
      intro e he heq
      obtain ⟨n, hn, hid⟩ := chart.exists_name_of_mem plot he
      have hname : n = .categoryLabel i :=
        CellName.text_injective (Option.some.inj (hid.symm.trans (of_decide_eq_true heq)))
      subst hname
      simp only [List.mem_cons, reduceCtorEq, false_or] at hn
      exact hi (Diagram.lt_of_categoryLabel_mem hn)
    have hpage : ((chart.diagram plot).element m).pageCells =
        (chart.diagram plot).cellElements := rfl
    rw [Element.shownText?, hpage, hnone, List.getElem?_eq_none (by simp; omega)]
    rfl

theorem reportedValue_text (n : CellName) : reportedValue n.text = n.text := by
  have hspace : ∀ c ∈ n.text.toList, isSpace c = false := by
    intro c hc
    have hvisible := n.visible_text c hc
    simp [isSpace, Text.inRanges]
    omega
  have hfeed : '\n' ∉ n.text.toList := fun hm => absurd (hspace _ hm) (by decide)
  rw [reportedValue_of_not_mem hfeed, blankedValue_of_not_isSpace hspace]

/-! ## Conversion -/

/-- The categories of a chart that label a value. -/
def Chart.shownCategories (chart : Chart Float) : List String :=
  chart.categories.take chart.series.length

theorem Chart.take_categories_plot (chart : Chart Float) (canvas : Canvas Float) :
    chart.categories.take (chart.plot canvas).points.length = chart.shownCategories := by
  simp [Chart.plot, Chart.shownCategories]

/-- What a processor reports of a converted chart, and when. -/
theorem reports_convert_iff (text : String) (e : Element) :
    Reports (convert text .standard) e ↔
      (OnlyChars (Chart.ofText text).title.toList ∧
        ∀ label ∈ (Chart.ofText text).shownCategories, OnlyChars label.toList) ∧
      e = (((Chart.ofText text).diagram ((Chart.ofText text).plot .standard)).element
        {}).mapValues reportedValue := by
  have hattributes : ∀ entry ∈ Metadata.attributes {}, OnlyChars entry.2.toList := by
    simp only [Metadata.attributes]
    decide
  have hconvert : convert text .standard = (((Chart.ofText text).diagram
      ((Chart.ofText text).plot .standard)).element {}).document := rfl
  rw [hconvert, reports_document_iff (Diagram.validTag_of_mem _ _),
    Diagram.valuesOnlyChars_iff _ hattributes, Chart.legible_cells_iff, Chart.take_categories_plot]

theorem isWellFormed_convert_iff (text : String) :
    IsWellFormed (convert text .standard) ↔
      OnlyChars (Chart.ofText text).title.toList ∧
        ∀ label ∈ (Chart.ofText text).shownCategories, OnlyChars label.toList := by
  simp only [IsWellFormed, reports_convert_iff, exists_and_left, exists_eq, and_true]

theorem shownText?_of_reports_convert {text : String} {e : Element}
    (h : Reports (convert text .standard) e) :
    e.shownText? "title" = some (blankedValue (Chart.ofText text).title) ∧
      ∀ i : Nat, e.shownText? s!"xlabel-{i}" =
        (Chart.ofText text).shownCategories[i]?.map blankedValue := by
  obtain ⟨-, rfl⟩ := (reports_convert_iff text e).mp h
  have hids : ∀ e ∈ ((Chart.ofText text).diagram ((Chart.ofText text).plot .standard)).cellElements,
      (e.attribute? "id").map reportedValue = e.attribute? "id" := by
    intro e he
    obtain ⟨n, -, hid⟩ := Chart.exists_name_of_mem _ _ he
    rw [hid, Option.map_some, reportedValue_text]
  refine ⟨?_, fun i => ?_⟩
  · rw [Diagram.shownText?_mapValues _ _ hids, Chart.shownText?_title, Option.map_some,
      reportedValue_of_not_mem (Chart.lineFeed_not_mem_title text)]
  · rw [Diagram.shownText?_mapValues _ _ hids, Chart.shownText?_categoryLabel,
      Chart.take_categories_plot]
    refine Option.map_congr fun label hlabel => reportedValue_of_not_mem ?_
    exact Chart.lineFeed_not_mem_category text label
      (List.mem_of_mem_take (List.mem_of_getElem? hlabel))

/-- A converted chart is a well-formed document if its title and the categories that are shown hold
characters of documents alone, and only then. A processor reports them as the texts of their cells,
with a blank for any white space in them. -/
theorem convert_reported (text : String) :
    (IsWellFormed (convert text .standard) ↔
      OnlyChars (Chart.ofText text).title.toList ∧
        ∀ label ∈ (Chart.ofText text).shownCategories, OnlyChars label.toList) ∧
    ∀ e : Element, Reports (convert text .standard) e →
      e.shownText? "title" = some (blankedValue (Chart.ofText text).title) ∧
      ∀ i : Nat, e.shownText? s!"xlabel-{i}" =
        (Chart.ofText text).shownCategories[i]?.map blankedValue :=
  ⟨isWellFormed_convert_iff text, fun _ => shownText?_of_reports_convert⟩

theorem convert_reported_costs :
    ∃ e : Element,
      Reports (convert "title R&D <costs>\nx-axis [a\tb, c]\nline [1, 2]" .standard) e ∧
      e.shownText? "title" = some "R&D <costs>" ∧ e.shownText? "xlabel-0" = some "a b" ∧
      e.shownText? "xlabel-2" = none := by
  have hreported := convert_reported "title R&D <costs>\nx-axis [a\tb, c]\nline [1, 2]"
  have htitle : (Chart.ofText "title R&D <costs>\nx-axis [a\tb, c]\nline [1, 2]").title =
      "R&D <costs>" := by decide
  have hcategories : (Chart.ofText
      "title R&D <costs>\nx-axis [a\tb, c]\nline [1, 2]").shownCategories = ["a\tb", "c"] := by
    decide
  rw [htitle, hcategories] at hreported
  obtain ⟨e, he⟩ := hreported.1.mpr (by decide)
  obtain ⟨hshown, hlabel⟩ := hreported.2 e he
  exact ⟨e, he, hshown.trans (by decide), (hlabel 0).trans (by decide), hlabel 2⟩

/-- Neither a tab nor a null character has an entity: the one is reported as a blank, the other is
in no well-formed document. -/
theorem convert_not_verbatim :
    (∃ e : Element, Reports (convert "title a\tb" .standard) e ∧
      e.shownText? "title" = some "a b" ∧ (Chart.ofText "title a\tb").title = "a\tb") ∧
    ¬IsWellFormed (convert "title a\x00b" .standard) := by
  have htab : (Chart.ofText "title a\tb").title = "a\tb" ∧
      (Chart.ofText "title a\tb").shownCategories = [] := by decide
  have hnull : (Chart.ofText "title a\x00b").title = "a\x00b" := by decide
  constructor
  · obtain ⟨e, he⟩ := (isWellFormed_convert_iff "title a\tb").mpr (by
      rw [htab.1, htab.2]
      decide)
    have hshown := (shownText?_of_reports_convert he).1
    rw [htab.1] at hshown
    exact ⟨e, he, hshown.trans (by decide), htab.1⟩
  · rw [isWellFormed_convert_iff, hnull]
    exact fun h => absurd h.1 (by decide)

end LineChart
