import LineChart.Chart.Reading
import LineChart.Proofs.Chart.Range
import LineChart.Proofs.Chart.Statement

namespace LineChart

open Text
open Number (Format IsPositional unsignZero)

theorem Text.hyphenated_cons (c : Char) (s : List Char) :
    hyphenated (c :: s) = (if c = '\u2212' then '-' else c) :: hyphenated s := rfl

theorem Text.hyphenated_append (s t : List Char) :
    hyphenated (s ++ t) = hyphenated s ++ hyphenated t := List.map_append

/-! ## Printed lines -/

/-- A keyword and the text behind it. -/
def keywordLine (keyword rest : List Char) : List Char := keyword ++ ' ' :: rest

namespace Chart

def titleLine (c : Chart Float) : List Char :=
  keywordLine "title".toList ('"' :: (c.title.toList ++ ['"']))

def categoryLine (c : Chart Float) : List Char :=
  keywordLine "x-axis".toList (bracketed (c.categories.map String.toList))

def seriesLine (c : Chart Float) : List Char :=
  keywordLine "line".toList (bracketed (c.series.map Format.diagram.chars))

end Chart

def ValueAxis.lineRest (axis : ValueAxis Float) : List Char :=
  '"' :: (axis.label.toList ++ '"' :: ' ' ::
    (Format.diagram.chars axis.min ++ (" --> ".toList ++ Format.diagram.chars axis.max)))

theorem ValueAxis.chars_eq (axis : ValueAxis Float) :
    axis.chars = keywordLine "y-axis".toList axis.lineRest := by
  have h : axis.chars = "y-axis \"".toList ++ axis.label.toList ++ "\" ".toList ++
      Format.diagram.chars axis.min ++ " --> ".toList ++ Format.diagram.chars axis.max := rfl
  rw [h, lineRest, keywordLine]
  simp

theorem Chart.printedLines_eq (c : Chart Float) :
    c.printedLines = c.titleLine :: ((if c.categories = [] then [] else [c.categoryLine]) ++
      c.valueAxis.chars :: (if c.series = [] then [] else [c.seriesLine])) := by
  have htitle : "title \"".toList ++ c.title.toList ++ ['"'] = c.titleLine := by
    simp [titleLine, keywordLine]
  have hcategories : "x-axis ".toList ++ bracketed (c.categories.map String.toList) =
      c.categoryLine := by simp [categoryLine, keywordLine]
  have hseries : "line ".toList ++ bracketed (c.series.map Format.diagram.chars) =
      c.seriesLine := by simp [seriesLine, keywordLine]
  have happend : ∀ (l m : List Char) (ls ms : List (List Char)),
      [l] ++ ls ++ [m] ++ ms = l :: (ls ++ m :: ms) := by simp
  rw [← htitle, ← hcategories, ← hseries]
  exact happend _ _ _ _

/-- A line that stays as it is when a chart text is cut into lines. -/
structure IsLine (l : List Char) : Prop where
  no_break : '\n' ∉ l
  ne_nil : l ≠ []
  start : Halts isPadding l
  stop : Halts isPadding l.reverse

theorem chartLines_intercalate {lines : List (List Char)} (hne : lines ≠ [])
    (h : ∀ l ∈ lines, IsLine l) : chartLines (List.intercalate ['\n'] lines) = lines := by
  have htrim : lines.map trimPadding = lines :=
    (List.map_congr_left fun l hl => trimWhile_of_halts (h l hl).start (h l hl).stop).trans
      (List.map_id lines)
  rw [chartLines, List.splitOn_intercalate _ (fun l hl => (h l hl).no_break) hne, htrim,
    List.filter_eq_self]
  exact fun l hl => by simpa using (h l hl).ne_nil

theorem not_mem_intercalate {c : Char} {sep : List Char} {items : List (List Char)} (hs : c ∉ sep)
    (h : ∀ item ∈ items, c ∉ item) : c ∉ List.intercalate sep items := by
  induction items with
  | nil => simp
  | cons item items ih =>
    have hitem := h item List.mem_cons_self
    have hrest := ih fun i hi => h i (List.mem_cons_of_mem _ hi)
    cases items with
    | nil => simpa using hitem
    | cons next items =>
      rw [List.intercalate_cons_cons, List.append_assoc]
      simp only [List.mem_append, not_or]
      exact ⟨hitem, hs, hrest⟩

theorem not_mem_chars {c : Char} (hc : Number.isNumberChar c = false) (v : Float) :
    c ∉ Format.diagram.chars v := by
  intro hm
  rw [Number.isNumberChar_of_mem_chars v c hm] at hc
  exact Bool.noConfusion hc

/-- A bracketed list behind a blank is found with its items. -/
theorem listItems?_bracketed {items : List (List Char)} (h : ∀ item ∈ items, ']' ∉ item) :
    listItems? (' ' :: bracketed items) =
      some ((List.intercalate ", ".toList items).splitOn ',') := by
  have hclose : ']' ∉ List.intercalate ", ".toList items := not_mem_intercalate (by decide) h
  have hblank : '[' ∉ [' '] := by decide
  have hgroup : between? '[' ']' (' ' :: bracketed items) =
      some (List.intercalate ", ".toList items) := between?_append hblank hclose []
  rw [listItems?, hgroup]
  rfl

/-! ## Charts that can be printed -/

/-- The charts that chart text has a spelling for. -/
structure Chart.Printable (c : Chart Float) : Prop where
  title : '"' ∉ c.title.toList ∧ '\n' ∉ c.title.toList ∧ Trimmed c.title.toList
  categories : ∀ s ∈ c.categories,
    ',' ∉ s.toList ∧ ']' ∉ s.toList ∧ '\n' ∉ s.toList ∧ Trimmed s.toList
  label : '"' ∉ c.valueAxis.label.toList ∧ '>' ∉ c.valueAxis.label.toList ∧
    '\n' ∉ c.valueAxis.label.toList
  min : IsPositional c.valueAxis.min
  max : IsPositional c.valueAxis.max

instance (c : Chart Float) : Decidable c.Printable :=
  decidable_of_iff
    (('"' ∉ c.title.toList ∧ '\n' ∉ c.title.toList ∧ Trimmed c.title.toList) ∧
      (∀ s ∈ c.categories,
        ',' ∉ s.toList ∧ ']' ∉ s.toList ∧ '\n' ∉ s.toList ∧ Trimmed s.toList) ∧
      ('"' ∉ c.valueAxis.label.toList ∧ '>' ∉ c.valueAxis.label.toList ∧
        '\n' ∉ c.valueAxis.label.toList) ∧
      IsPositional c.valueAxis.min ∧ IsPositional c.valueAxis.max)
    ⟨fun ⟨ht, hc, hl, hlow, hhigh⟩ => ⟨ht, hc, hl, hlow, hhigh⟩, fun h =>
      ⟨h.title, h.categories, h.label, h.min, h.max⟩⟩

/-- The chart without the signs of its zeros. -/
def Chart.unsignZeros (c : Chart Float) : Chart Float :=
  { c with
    valueAxis := ⟨c.valueAxis.label, unsignZero c.valueAxis.min, unsignZero c.valueAxis.max⟩
    series := c.series.map unsignZero }

/-- A keyword, a blank and a text that ends with neither a blank nor a line break in it. -/
theorem isLine_keywordLine {keyword rest : List Char} (hk : Halts isPadding keyword)
    (hne : keyword ≠ []) (hb : '\n' ∉ keywordLine keyword rest)
    (hstop : Halts isPadding rest.reverse) (hrest : rest ≠ []) : IsLine (keywordLine keyword rest) where
  no_break := hb
  ne_nil := by simp [keywordLine]
  start := by
    obtain ⟨c, k, rfl⟩ := List.exists_cons_of_ne_nil hne
    exact hk
  stop := by
    obtain ⟨c, r, hr⟩ := List.exists_cons_of_ne_nil (List.reverse_ne_nil_iff.mpr hrest)
    rw [keywordLine, List.reverse_append, List.reverse_cons, hr]
    rwa [hr] at hstop

/-- Bracketed lists hold no line break if their items hold none. -/
theorem isLine_bracketed {keyword : List Char} {items : List (List Char)}
    (hk : Halts isPadding keyword) (hne : keyword ≠ []) (hb : '\n' ∉ keyword)
    (h : ∀ item ∈ items, '\n' ∉ item) : IsLine (keywordLine keyword (bracketed items)) := by
  have hitems : '\n' ∉ List.intercalate ", ".toList items := not_mem_intercalate (by decide) h
  refine isLine_keywordLine hk hne ?_ ?_ (by simp [bracketed])
  · simpa [keywordLine, bracketed, hb] using hitems
  · rw [bracketed, List.reverse_append]
    exact halts_cons.mpr (by decide)

theorem isLine_seriesLine (c : Chart Float) : IsLine c.seriesLine := by
  refine isLine_bracketed (halts_cons.mpr (by decide)) (by decide) (by decide) ?_
  intro item hm
  obtain ⟨v, -, rfl⟩ := List.mem_map.mp hm
  exact not_mem_chars (by decide) v

/-- The line of a value axis ends with a number. -/
theorem ValueAxis.halts_reverse_lineRest (axis : ValueAxis Float) :
    Halts isPadding axis.lineRest.reverse := by
  have hlast : Halts isPadding (Format.diagram.chars axis.max).reverse := fun c hc =>
    Number.isPadding_eq_false_of_isNumberChar (Number.isNumberChar_of_mem_chars axis.max c
      (List.mem_reverse.mp (List.mem_of_mem_head? hc)))
  obtain ⟨d, ds, hd⟩ := List.exists_cons_of_ne_nil
    (List.reverse_ne_nil_iff.mpr (Number.chars_ne_nil axis.max))
  rw [hd] at hlast
  simp only [lineRest, List.reverse_cons, List.reverse_append, hd, List.cons_append]
  exact hlast

theorem isLine_valueAxis {axis : ValueAxis Float} (h : '\n' ∉ axis.label.toList) :
    IsLine axis.chars := by
  have hlow := not_mem_chars (c := '\n') (by decide) axis.min
  have hhigh := not_mem_chars (c := '\n') (by decide) axis.max
  have hne : axis.lineRest ≠ [] := by simp [ValueAxis.lineRest]
  rw [axis.chars_eq]
  refine isLine_keywordLine (halts_cons.mpr (by decide)) (by decide) ?_ ?_ hne
  · simp [keywordLine, ValueAxis.lineRest, h, hlow, hhigh]
  · exact axis.halts_reverse_lineRest

namespace Chart.Printable

variable {c : Chart Float} (h : c.Printable)
include h

theorem isLine_titleLine : IsLine c.titleLine := by
  refine isLine_keywordLine (halts_cons.mpr (by decide)) (by decide) ?_ ?_ (by simp)
  · simp [keywordLine, h.title.2.1]
  · rw [List.reverse_cons, List.reverse_append]
    exact halts_cons.mpr (by decide)

theorem isLine_categoryLine : IsLine c.categoryLine := by
  refine isLine_bracketed (halts_cons.mpr (by decide)) (by decide) (by decide) ?_
  intro item hm
  obtain ⟨s, hs, rfl⟩ := List.mem_map.mp hm
  exact (h.categories s hs).2.2.1

/-! ## What the printed lines say -/

theorem title?_titleLine : (Statement.ofLine c.titleLine).title? = some c.title := by
  have hfilter : c.title.toList.filter (· != '"') = c.title.toList := by
    rw [List.filter_eq_self]
    intro d hd
    simpa using ne_of_mem_of_not_mem hd h.title.1
  have hrest : (' ' :: '"' :: (c.title.toList ++ ['"'])).filter (· != '"') =
      ' ' :: c.title.toList := by simp [hfilter]
  rw [titleLine, keywordLine, Statement.ofLine_title, Statement.title?, hrest, trim_blank_cons,
    h.title.2.2.trim_eq, String.ofList_toList]

theorem categories?_categoryLine (hne : c.categories ≠ []) :
    (Statement.ofLine c.categoryLine).categories? = some c.categories := by
  have hitem : ∀ item ∈ c.categories.map String.toList, ',' ∉ item ∧ ']' ∉ item ∧ Trimmed item := by
    intro item hm
    obtain ⟨s, hs, rfl⟩ := List.mem_map.mp hm
    exact ⟨(h.categories s hs).1, (h.categories s hs).2.1, (h.categories s hs).2.2.2⟩
  rw [categoryLine, keywordLine, Statement.ofLine_xAxis, Statement.categories?,
    listItems?_bracketed fun item hm => (hitem item hm).2.1, Option.map_some,
    map_splitOn_intercalate (by simpa using hne) (fun item hm => (hitem item hm).1)]
  · rw [List.map_map]
    congr 1
    refine (List.map_congr_left fun s hs => ?_).trans (List.map_id _)
    simp [(hitem s.toList (List.mem_map_of_mem hs)).2.2.trim_eq]
  · intro item hm
    rw [Function.comp_apply, trim_blank_cons, Function.comp_apply]

omit h in
theorem series?_seriesLine (hne : c.series ≠ []) :
    (Statement.ofLine c.seriesLine).series? = some (c.series.map unsignZero) := by
  have hitem : ∀ item ∈ c.series.map Format.diagram.chars, ',' ∉ item ∧ ']' ∉ item := by
    intro item hm
    obtain ⟨v, -, rfl⟩ := List.mem_map.mp hm
    exact ⟨not_mem_chars (by decide) v, not_mem_chars (by decide) v⟩
  rw [seriesLine, keywordLine, Statement.ofLine_line, Statement.series?,
    listItems?_bracketed fun item hm => (hitem item hm).2, Option.map_some,
    map_splitOn_intercalate (by simpa using hne) (fun item hm => (hitem item hm).1)]
  · rw [List.map_map]
    congr 1
    exact List.map_congr_left fun v _ => Number.ofToken_chars v
  · exact fun item _ => Number.ofToken_blank_cons item

omit h in
theorem ofLine_valueAxis (axis : ValueAxis Float) :
    Statement.ofLine axis.chars = .yAxis axis.lineRest := by
  have hblank : Halts isBlank axis.lineRest.reverse :=
    axis.halts_reverse_lineRest.mono fun c hc => by simp [isPadding, hc]
  have hquote : Halts isBlank axis.lineRest := halts_cons.mpr (by decide)
  rw [axis.chars_eq, keywordLine, Statement.ofLine_yAxis, trim_blank_cons, trim,
    trimWhile_of_halts hquote hblank]

theorem label?_valueAxis :
    (Statement.ofLine c.valueAxis.chars).label? = some c.valueAxis.label := by
  have hgroup : between? '"' '"' c.valueAxis.lineRest = some c.valueAxis.label.toList :=
    between?_append (List.not_mem_nil) h.label.1 _
  rw [ofLine_valueAxis, Statement.label?, hgroup, Option.map_some, String.ofList_toList]

theorem range?_valueAxis : (Statement.ofLine c.valueAxis.chars).range? =
    some (unsignZero c.valueAxis.min, unsignZero c.valueAxis.max) := by
  have hyphen : hyphenated c.valueAxis.lineRest = '"' :: (hyphenated c.valueAxis.label.toList ++
      '"' :: ' ' :: (Format.diagram.chars c.valueAxis.min ++
        (" --> ".toList ++ Format.diagram.chars c.valueAxis.max))) := by
    rw [ValueAxis.lineRest, hyphenated_cons, hyphenated_append, hyphenated_cons, hyphenated_cons,
      hyphenated_append, hyphenated_append, Number.hyphenated_chars, Number.hyphenated_chars]
    rfl
  have hlabel : '>' ∉ hyphenated c.valueAxis.label.toList := by
    intro hm
    obtain ⟨d, hd, heq⟩ := List.mem_map.mp hm
    split at heq
    · exact absurd heq (by decide)
    · exact h.label.2.1 (heq ▸ hd)
  -- neither quote of the label lets a range start before the bounds
  have hfind : findRange? (hyphenated c.valueAxis.lineRest) =
      some (Format.diagram.chars c.valueAxis.min, Format.diagram.chars c.valueAxis.max) := by
    rw [hyphen, ← List.nil_append ('"' :: _), findRange?_append List.not_mem_nil,
      findRange?_append hlabel]
    have hblank : ∀ t, findRange? (' ' :: t) = findRange? t := fun t => rfl
    rw [hblank]
    exact findRange?_of_rangeAt? (rangeAt?_chars h.min h.max)
  rw [ofLine_valueAxis, Statement.range?, hfind]
  simp only [Option.map_some, Number.ofToken_chars]

/-! ## What the printed lines change -/

theorem update_titleLine (base : Chart Float) :
    base.update (Statement.ofLine c.titleLine) = { base with title := c.title } := by
  have ht := h.title?_titleLine
  rw [titleLine, keywordLine, Statement.ofLine_title] at ht ⊢
  rw [Chart.update, ht]
  rfl

theorem update_categoryLine (hne : c.categories ≠ []) (base : Chart Float) :
    base.update (Statement.ofLine c.categoryLine) = { base with categories := c.categories } := by
  have hc := h.categories?_categoryLine hne
  rw [categoryLine, keywordLine, Statement.ofLine_xAxis] at hc ⊢
  rw [Chart.update, hc]
  rfl

theorem update_valueAxis (base : Chart Float) :
    base.update (Statement.ofLine c.valueAxis.chars) =
      { base with valueAxis := c.unsignZeros.valueAxis } := by
  have hl := h.label?_valueAxis
  have hr := h.range?_valueAxis
  rw [ofLine_valueAxis] at hl hr ⊢
  rw [Chart.update, hl, hr]
  rfl

omit h in
theorem update_seriesLine (hne : c.series ≠ []) (base : Chart Float) :
    base.update (Statement.ofLine c.seriesLine) =
      { base with series := c.series.map unsignZero } := by
  have hs := series?_seriesLine hne
  rw [seriesLine, keywordLine, Statement.ofLine_line] at hs ⊢
  rw [Chart.update, hs]
  rfl

theorem isLine_of_mem_printedLines {l : List Char} (hl : l ∈ c.printedLines) : IsLine l := by
  rw [Chart.printedLines_eq] at hl
  rcases List.mem_cons.mp hl with rfl | hl
  · exact h.isLine_titleLine
  rcases List.mem_append.mp hl with hl | hl
  · split at hl
    · exact absurd hl List.not_mem_nil
    · exact List.mem_singleton.mp hl ▸ h.isLine_categoryLine
  rcases List.mem_cons.mp hl with rfl | hl
  · exact isLine_valueAxis h.label.2.2
  · split at hl
    · exact absurd hl List.not_mem_nil
    · exact List.mem_singleton.mp hl ▸ isLine_seriesLine c

end Chart.Printable

/-- Reading a printed chart gives the chart back, but for the signs of its zeros. -/
theorem Chart.ofText_toText (c : Chart Float) (h : c.Printable) :
    Chart.ofText c.toText = c.unsignZeros := by
  have hlines : chartLines c.toText.toList = c.printedLines := by
    rw [toText, String.toList_ofList]
    refine chartLines_intercalate ?_ fun l hl => h.isLine_of_mem_printedLines hl
    rw [printedLines_eq]
    exact List.cons_ne_nil _ _
  have hcategories : ∀ base : Chart Float, base.categories = [] →
      (((if c.categories = [] then [] else [c.categoryLine]).map Statement.ofLine).foldl
        Chart.update base) = { base with categories := c.categories } := by
    rintro ⟨title, categories, axis, series⟩ rfl
    split
    · next hc => rw [hc]; rfl
    · next hc => exact h.update_categoryLine hc _
  have hseries : ∀ base : Chart Float, base.series = [] →
      (((if c.series = [] then [] else [c.seriesLine]).map Statement.ofLine).foldl
        Chart.update base) = { base with series := c.series.map unsignZero } := by
    rintro ⟨title, categories, axis, series⟩ rfl
    split
    · next hs => rw [hs]; rfl
    · next hs => exact Printable.update_seriesLine hs _
  -- every line sets its own field, and the lists that are left out were empty before
  rw [ofText, hlines, printedLines_eq, List.map_cons, List.foldl_cons, h.update_titleLine,
    List.map_append, List.foldl_append, hcategories _ rfl, List.map_cons, List.foldl_cons,
    h.update_valueAxis, hseries _ rfl]
  rfl

/-- Blanks, brackets, minus signs and marks inside the texts, and numbers of every form. -/
def Chart.unruly : Chart Float where
  title := "\uFEFF[a, b] --> \u2212 3\u2028]\r."
  categories := ["[Q1\u2028A", "\u2212 \r\"2", ""]
  valueAxis := ⟨" [%] \u2212 1, 2 ] ", Number.ofRank true 0, Number.ofNat 120⟩
  series := [Number.notANumber, Number.ofRank true Number.infinityRank, Number.ofRank true 0,
    Number.ofRank false 1]

theorem Chart.ofText_toText_unruly :
    Chart.unruly.Printable ∧ Chart.ofText Chart.unruly.toText = Chart.unruly.unsignZeros := by
  have h : Chart.unruly.Printable := by decide +kernel
  exact ⟨h, Chart.ofText_toText Chart.unruly h⟩

end LineChart
