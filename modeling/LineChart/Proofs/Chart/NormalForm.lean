import LineChart.Proofs.Chart.Lines

/-! The form that a chart has if it comes from a text. -/

namespace LineChart

open Text

/-- Titles and labels without quotes, categories that could be the items of a list, and nothing that
spans lines or has blanks around it; only a label keeps its blanks. -/
structure Chart.IsNormal (c : Chart Float) : Prop where
  title : '"' ∉ c.title.toList ∧ '\n' ∉ c.title.toList ∧ Trimmed c.title.toList
  categories : ∀ s ∈ c.categories,
    ',' ∉ s.toList ∧ ']' ∉ s.toList ∧ '\n' ∉ s.toList ∧ Trimmed s.toList
  label : '"' ∉ c.valueAxis.label.toList ∧ '\n' ∉ c.valueAxis.label.toList

/-! ## Texts of a chart -/

namespace Chart

theorem title_isNormal (text : String) :
    '"' ∉ (ofText text).title.toList ∧ Trimmed (ofText text).title.toList := by
  rw [title_eq_lastSetting]
  cases h : lastSetting .title Statement.title? text with
  | none => decide
  | some title =>
    obtain ⟨rest, -, htitle⟩ := exists_directive_of_lastSetting h
    obtain rfl := Option.some.inj htitle
    rw [Option.getD_some, String.toList_ofList]
    refine ⟨fun hm => ?_, trimmed_trim _⟩
    have hkept := (List.mem_filter.mp (mem_of_mem_trimWhile hm)).2
    simp at hkept

theorem category_isNormal (text : String) : ∀ label ∈ (ofText text).categories,
    ',' ∉ label.toList ∧ ']' ∉ label.toList ∧ Trimmed label.toList := by
  rw [categories_ofText]
  intro label hlabel
  obtain ⟨item, hitem, rfl⟩ := List.mem_map.mp hlabel
  obtain ⟨rest, -, body, hbody, hitem⟩ := exists_directive_of_mem_lastItems hitem
  obtain ⟨-, -, -, -, hclose⟩ := between?_eq_some_iff.mp hbody
  rw [Function.comp_apply, String.toList_ofList]
  refine ⟨fun hm => ?_, fun hm => ?_, trimmed_trim item⟩
  · exact (of_mem_splitOn hitem (mem_of_mem_trimWhile hm)).1 rfl
  · exact hclose (of_mem_splitOn hitem (mem_of_mem_trimWhile hm)).2

theorem label_isNormal (text : String) :
    '"' ∉ (ofText text).valueAxis.label.toList ∧
      '\n' ∉ (ofText text).valueAxis.label.toList := by
  rw [label_eq_lastSetting]
  cases h : lastSetting .yAxis Statement.label? text with
  | none => decide
  | some label =>
    obtain ⟨rest, hrest, hlabel⟩ := exists_directive_of_lastSetting h
    obtain ⟨body, hbody, rfl⟩ := Option.map_eq_some_iff.mp hlabel
    obtain ⟨-, -, -, -, hquote⟩ := between?_eq_some_iff.mp hbody
    rw [Option.getD_some, String.toList_ofList]
    exact ⟨hquote, fun hm => lineFeed_not_mem_of_mem_directives hrest
      (mem_of_mem_trimWhile (mem_of_mem_between? hbody hm))⟩

end Chart

/-! ## Lengths of lists -/

theorem length_splitOn (sep : Char) (s : List Char) :
    (s.splitOn sep).length = s.count sep + 1 := by
  induction s with
  | nil => rfl
  | cons c s ih =>
    rw [List.splitOn_cons_eq_if_modifyHead, List.count_cons]
    split <;> simp [ih]

/-- `n` is the number of items in the last of some texts to have a list, or zero if none has. -/
structure CountsLastList (rests : List (List Char)) (n : Nat) : Prop where
  eq_zero_iff : n = 0 ↔ ∀ rest ∈ rests, ¬HasGroup '[' ']' rest
  exists_last : n ≠ 0 → ∃ before rest after body, rests = before ++ rest :: after ∧
    (∀ later ∈ after, ¬HasGroup '[' ']' later) ∧ IsFirstGroup '[' ']' rest body ∧
    n = body.count ',' + 1

theorem listItems?_eq_none_iff {rest : List Char} :
    listItems? rest = none ↔ ¬HasGroup '[' ']' rest := by
  rw [listItems?, Option.map_eq_none_iff, between?_eq_none_iff]

theorem countsLastList (keyword text : String) :
    CountsLastList (directives keyword text) (lastItems keyword text).length := by
  rw [lastItems]
  cases hlast : ((directives keyword text).filterMap listItems?).getLast? with
  | none =>
    have hnone := List.filterMap_eq_nil_iff.mp (List.getLast?_eq_none_iff.mp hlast)
    exact ⟨iff_of_true rfl fun rest hrest => listItems?_eq_none_iff.mp (hnone rest hrest),
      fun h => absurd rfl h⟩
  | some items =>
    obtain ⟨before, rest, after, hrests, hitems, hafter⟩ := exists_last_of_getLast?_filterMap hlast
    obtain ⟨body, hbody, rfl⟩ := Option.map_eq_some_iff.mp hitems
    have hgroup := between?_eq_some_iff.mp hbody
    have hmem : rest ∈ directives keyword text := by simp [hrests]
    rw [Option.getD_some, length_splitOn]
    exact ⟨iff_of_false (Nat.succ_ne_zero _) fun hnone => hnone rest hmem hgroup.hasGroup,
      fun _ => ⟨before, rest, after, body, hrests,
        fun later hlater => listItems?_eq_none_iff.mp (hafter later hlater), hgroup, rfl⟩⟩

/-- The chart of any text is in normal form, and has as many categories and values as the last lines
with a list have items. -/
theorem Chart.ofText_isNormal (text : String) :
    (ofText text).IsNormal ∧
      CountsLastList (directives "x-axis" text) (ofText text).categories.length ∧
      CountsLastList (directives "line" text) (ofText text).series.length := by
  refine ⟨⟨?_, fun s hs => ?_, label_isNormal text⟩, ?_, ?_⟩
  · obtain ⟨hquote, htrimmed⟩ := title_isNormal text
    exact ⟨hquote, lineFeed_not_mem_title text, htrimmed⟩
  · obtain ⟨hcomma, hclose, htrimmed⟩ := category_isNormal text s hs
    exact ⟨hcomma, hclose, lineFeed_not_mem_category text s hs, htrimmed⟩
  · rw [categories_ofText, List.length_map]
    exact countsLastList "x-axis" text
  · rw [series_ofText, List.length_map]
    exact countsLastList "line" text

/-- A list ends at the first closing bracket, and one that closes before it opens is no list. -/
example : (Chart.ofText "x-axis [[a, b] c]\nx-axis ] [x").categories = ["[a", "b"] := by
  decide +kernel

end LineChart
