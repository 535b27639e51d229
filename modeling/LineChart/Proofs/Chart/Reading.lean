import Mathlib.Data.List.Forall2
import LineChart.Chart.Reading
import LineChart.Proofs.Chart.Statement
import LineChart.Proofs.LastSetting
import LineChart.Proofs.Text.Span

namespace LineChart

open Text

/-! ## Statements of one kind -/

inductive Keyword where
  | title
  | xAxis
  | yAxis
  | line
deriving DecidableEq

/-- The keyword that a statement stands behind. -/
def Statement.keyword? : Statement → Option Keyword
  | title _ => some .title
  | xAxis _ => some .xAxis
  | yAxis _ => some .yAxis
  | line _ => some .line
  | other => none

namespace Keyword

def text : Keyword → String
  | title => "title"
  | xAxis => "x-axis"
  | yAxis => "y-axis"
  | line => "line"

/-- The statement that a keyword makes of the text behind it. -/
def statement : Keyword → List Char → Statement
  | title, rest => .title rest
  | xAxis, rest => .xAxis rest
  | yAxis, rest => .yAxis (trim rest)
  | line, rest => .line rest

theorem keyword?_statement (k : Keyword) (rest : List Char) :
    (k.statement rest).keyword? = some k := by
  cases k <;> rfl

theorem ofLine_append (k : Keyword) (rest : List Char) :
    Statement.ofLine (k.text.toList ++ rest) = k.statement rest := by
  cases k with
  | title => exact Statement.ofLine_title rest
  | xAxis => exact Statement.ofLine_xAxis rest
  | yAxis => exact Statement.ofLine_yAxis rest
  | line => exact Statement.ofLine_line rest

/-- No line has two keywords in front. -/
theorem isPrefixOf?_append_of_ne {k k' : Keyword} (h : k ≠ k') (rest : List Char) :
    k.text.toList.isPrefixOf? (k'.text.toList ++ rest) = none := by
  cases k <;> cases k' <;> simp_all [text, List.isPrefixOf?]

theorem ofLine_cases (l : List Char) :
    (∃ (k : Keyword) (rest : List Char), l = k.text.toList ++ rest) ∨
      (∀ k : Keyword, k.text.toList.isPrefixOf? l = none) ∧ Statement.ofLine l = .other := by
  by_cases h : ∃ (k : Keyword) (rest : List Char), k.text.toList.isPrefixOf? l = some rest
  · obtain ⟨k, rest, hk⟩ := h
    exact .inl ⟨k, rest, (List.isPrefixOf?_eq_some_iff_append_eq.mp hk).symm⟩
  · have hnone : ∀ k : Keyword, k.text.toList.isPrefixOf? l = none := by
      intro k
      cases hk : k.text.toList.isPrefixOf? l with
      | none => rfl
      | some rest => exact absurd ⟨k, rest, hk⟩ h
    refine .inr ⟨hnone, ?_⟩
    have ht : "title".toList.isPrefixOf? l = none := hnone title
    have hx : "x-axis".toList.isPrefixOf? l = none := hnone xAxis
    have hy : "y-axis".toList.isPrefixOf? l = none := hnone yAxis
    have hl : "line".toList.isPrefixOf? l = none := hnone line
    simp only [Statement.ofLine, ht, hx, hy, hl]

/-- A field that only statements of one kind set is set by what stands behind their keyword. -/
theorem set?_ofLine {β : Type} {set? : Statement → Option β} {k : Keyword}
    (h : ∀ s : Statement, s.keyword? ≠ some k → set? s = none) (l : List Char) :
    set? (Statement.ofLine l) = (k.text.toList.isPrefixOf? l).bind (set? ∘ k.statement) := by
  rcases ofLine_cases l with ⟨k', rest, rfl⟩ | ⟨hnone, hl⟩
  · rw [k'.ofLine_append]
    by_cases hk : k = k'
    · subst hk
      rw [List.isPrefixOf?_eq_some_iff_append_eq.mpr rfl, Option.bind_some, Function.comp_apply]
    · have hne : (k'.statement rest).keyword? ≠ some k := by
        rw [keyword?_statement]
        exact fun heq => hk (Option.some.inj heq).symm
      rw [isPrefixOf?_append_of_ne hk, Option.bind_none, h _ hne]
  · rw [hl, hnone k, Option.bind_none, h .other (Option.some_ne_none k).symm]

end Keyword

/-! ## The lines of a text -/

theorem of_mem_splitOn {sep c : Char} {s piece : List Char} (h : piece ∈ s.splitOn sep)
    (hc : c ∈ piece) : c ≠ sep ∧ c ∈ s := by
  induction s generalizing piece with
  | nil => simp_all [List.splitOn_nil]
  | cons d s ih =>
    rw [List.splitOn_cons_eq_if_modifyHead] at h
    split at h
    · rcases List.mem_cons.mp h with rfl | h
      · exact absurd hc List.not_mem_nil
      · exact ⟨(ih h hc).1, List.mem_cons_of_mem _ (ih h hc).2⟩
    · next hd =>
      have hd : d ≠ sep := by simpa using hd
      obtain ⟨first, rest, hs⟩ := List.exists_cons_of_ne_nil (List.splitOn_ne_nil sep s)
      rw [hs, List.modifyHead_cons] at h
      rcases List.mem_cons.mp h with rfl | h
      · rcases List.mem_cons.mp hc with rfl | hc
        · exact ⟨hd, List.mem_cons_self⟩
        · have hfirst := ih (hs ▸ List.mem_cons_self) hc
          exact ⟨hfirst.1, List.mem_cons_of_mem _ hfirst.2⟩
      · have hrest := ih (hs ▸ List.mem_cons_of_mem _ h) hc
        exact ⟨hrest.1, List.mem_cons_of_mem _ hrest.2⟩

/-- A text comes apart at its line feeds into pieces, each of which has padding around its core. The
lines of the text are the cores in which there is something, in order. -/
def HasLines (text : List Char) (lines : List (List Char)) : Prop :=
  ∃ pieces cores, text = ['\n'].intercalate pieces ∧ (∀ piece ∈ pieces, '\n' ∉ piece) ∧
    List.Forall₂ (IsCore isPadding) pieces cores ∧ lines = cores.filter (· ≠ [])

theorem hasLines_chartLines (text : List Char) : HasLines text (chartLines text) := by
  refine ⟨text.splitOn '\n', (text.splitOn '\n').map trimPadding,
    (List.intercalate_splitOn '\n').symm, fun piece hpiece hmem => (of_mem_splitOn hpiece hmem).1 rfl,
    ?_, rfl⟩
  rw [List.forall₂_map_right_iff, List.forall₂_same]
  exact fun piece _ => isCore_trimWhile isPadding piece

/-- The lines are determined by the text. -/
theorem hasLines_iff {text : List Char} {lines : List (List Char)} :
    HasLines text lines ↔ chartLines text = lines := by
  constructor
  · rintro ⟨pieces, cores, rfl, hbreak, hcores, rfl⟩
    obtain rfl : pieces.map trimPadding = cores := by
      rw [← List.forall₂_eq_eq_eq, List.forall₂_map_left_iff]
      exact hcores.imp fun _ _ => isCore_iff.mp
    cases pieces with
    | nil => rfl
    | cons piece pieces => rw [chartLines, List.splitOn_intercalate _ hbreak (List.cons_ne_nil _ _)]
  · rintro rfl
    exact hasLines_chartLines text

/-- What stands behind a keyword, line by line. Which lines these are, `HasLines` tells. -/
def directives (keyword text : String) : List (List Char) :=
  (chartLines text.toList).filterMap keyword.toList.isPrefixOf?

theorem directives_of_hasLines {text : String} {lines : List (List Char)}
    (h : HasLines text.toList lines) (keyword : String) :
    directives keyword text = lines.filterMap keyword.toList.isPrefixOf? := by
  rw [directives, hasLines_iff.mp h]

/-- What the last directive of a kind that sets a field sets it to. -/
def lastSetting {β : Type} (k : Keyword) (set? : Statement → Option β) (text : String) : Option β :=
  ((directives k.text text).filterMap (set? ∘ k.statement)).getLast?

/-- A field that one kind of statements sets is what the last of them to set it says. -/
theorem Chart.field_ofText {β : Type} (field : Chart Float → β) {set? : Statement → Option β}
    (hfield : ∀ (base : Chart Float) (s : Statement),
      field (base.update s) = (set? s).getD (field base))
    {k : Keyword} (h : ∀ s : Statement, s.keyword? ≠ some k → set? s = none) (text : String) :
    field (Chart.ofText text) = (lastSetting k set? text).getD (field Chart.empty) := by
  rw [ofText, field_foldl Chart.update field set? hfield, List.filterMap_map, lastSetting, directives,
    List.filterMap_filterMap]
  simp only [Function.comp_def, Keyword.set?_ofLine h]

namespace Chart

variable (text : String)

theorem title_eq_lastSetting :
    (ofText text).title = (lastSetting .title Statement.title? text).getD defaultTitle := by
  refine field_ofText Chart.title (fun _ _ => rfl) (fun s hs => ?_) text
  cases s with
  | title rest => exact absurd rfl hs
  | _ => rfl

theorem categories_eq_lastSetting :
    (ofText text).categories = (lastSetting .xAxis Statement.categories? text).getD [] := by
  refine field_ofText Chart.categories (fun _ _ => rfl) (fun s hs => ?_) text
  cases s with
  | xAxis rest => exact absurd rfl hs
  | _ => rfl

theorem range_eq_lastSetting :
    ((ofText text).valueAxis.min, (ofText text).valueAxis.max) =
      (lastSetting .yAxis Statement.range? text).getD
        (ValueAxis.percent.min, ValueAxis.percent.max) := by
  refine field_ofText (fun chart => (chart.valueAxis.min, chart.valueAxis.max)) (fun _ _ => rfl)
    (fun s hs => ?_) text
  cases s with
  | yAxis rest => exact absurd rfl hs
  | _ => rfl

theorem label_eq_lastSetting :
    (ofText text).valueAxis.label = (lastSetting .yAxis Statement.label? text).getD "" := by
  refine field_ofText (fun chart => chart.valueAxis.label) (fun _ _ => rfl) (fun s hs => ?_) text
  cases s with
  | yAxis rest => exact absurd rfl hs
  | _ => rfl

theorem series_eq_lastSetting :
    (ofText text).series = (lastSetting .line Statement.series? text).getD [] := by
  refine field_ofText Chart.series (fun _ _ => rfl) (fun s hs => ?_) text
  cases s with
  | line rest => exact absurd rfl hs
  | _ => rfl

end Chart

/-! ## Lists -/

/-- The items of the last directive that has a list. -/
def lastItems (keyword text : String) : List (List Char) :=
  ((directives keyword text).filterMap listItems?).getLast?.getD []

theorem getLast?_filterMap_listItems? {β : Type} (f : List Char → β) (rests : List (List Char)) :
    (rests.filterMap fun rest => (listItems? rest).map (List.map f)).getLast?.getD [] =
      ((rests.filterMap listItems?).getLast?.getD []).map f := by
  rw [← List.map_filterMap, List.getLast?_map]
  cases (rests.filterMap listItems?).getLast? <;> rfl

theorem Chart.series_ofText (text : String) :
    (Chart.ofText text).series = (lastItems "line" text).map Number.ofToken := by
  rw [series_eq_lastSetting]
  exact getLast?_filterMap_listItems? Number.ofToken (directives "line" text)

example : lastItems "line" "line [1]\nline [2, 3]\nline 4]" = ["2".toList, " 3".toList] := by
  decide

theorem Chart.categories_ofText (text : String) :
    (Chart.ofText text).categories = (lastItems "x-axis" text).map (String.ofList ∘ trim) := by
  rw [categories_eq_lastSetting]
  exact getLast?_filterMap_listItems? (String.ofList ∘ trim) (directives "x-axis" text)

/-! ## Lines put together -/

theorem chartLines_append (s t : List Char) :
    chartLines (s ++ '\n' :: t) = chartLines s ++ chartLines t := by
  rw [chartLines, List.splitOn_append_cons_self, List.map_append, List.filter_append]
  rfl

end LineChart
