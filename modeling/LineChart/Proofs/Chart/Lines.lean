import LineChart.Proofs.Chart.Reading

namespace LineChart

open Text

/-! ## Parts of a text -/

theorem mem_of_mem_trimWhile {p : Char → Bool} {c : Char} {s : List Char}
    (h : c ∈ trimWhile p s) : c ∈ s := by
  have hdrop : ∀ {l : List Char}, c ∈ l.dropWhile p → c ∈ l :=
    fun hm => (List.dropWhile_sublist p).mem hm
  exact hdrop (List.mem_reverse.mp (hdrop (List.mem_reverse.mp h)))

theorem mem_of_mem_between? {opening closing c : Char} {s body : List Char}
    (h : between? opening closing s = some body) (hc : c ∈ body) : c ∈ s := by
  rw [between?] at h
  split at h
  · contradiction
  · next d rest hs =>
    have hrest : c ∈ s.dropWhile (· != opening) → c ∈ s :=
      fun hm => (List.dropWhile_sublist _).mem hm
    split at h
    · obtain rfl := Option.some.inj h
      exact hrest (hs ▸ List.mem_cons_of_mem _ ((List.takeWhile_sublist _).mem hc))
    · contradiction

/-! ## Texts within a line -/

theorem lineFeed_not_mem_of_mem_chartLines {text l : List Char} (h : l ∈ chartLines text) :
    '\n' ∉ l := by
  obtain ⟨piece, hpiece, rfl⟩ := List.mem_map.mp (List.mem_filter.mp h).1
  exact fun hm => (of_mem_splitOn hpiece (mem_of_mem_trimWhile hm)).1 rfl

theorem lineFeed_not_mem_of_mem_directives {keyword text : String} {rest : List Char}
    (h : rest ∈ directives keyword text) : '\n' ∉ rest := by
  obtain ⟨l, hl, hrest⟩ := List.mem_filterMap.mp h
  obtain rfl := List.isPrefixOf?_eq_some_iff_append_eq.mp hrest
  exact fun hm => lineFeed_not_mem_of_mem_chartLines hl (List.mem_append_right _ hm)

/-- What a field is set to has been found behind a keyword. -/
theorem exists_directive_of_lastSetting {β : Type} {k : Keyword} {set? : Statement → Option β}
    {text : String} {value : β} (h : lastSetting k set? text = some value) :
    ∃ rest ∈ directives k.text text, set? (k.statement rest) = some value :=
  List.mem_filterMap.mp (List.mem_of_getLast? h)

/-- A title is within one line. -/
theorem Chart.lineFeed_not_mem_title (text : String) : '\n' ∉ (ofText text).title.toList := by
  rw [title_eq_lastSetting]
  cases h : lastSetting .title Statement.title? text with
  | none => decide
  | some title =>
    obtain ⟨rest, hrest, htitle⟩ := exists_directive_of_lastSetting h
    obtain rfl := Option.some.inj htitle
    rw [Option.getD_some, String.toList_ofList]
    exact fun hm => lineFeed_not_mem_of_mem_directives hrest
      (List.mem_filter.mp (mem_of_mem_trimWhile hm)).1

/-- Every item has been found in a group behind a keyword. -/
theorem exists_directive_of_mem_lastItems {keyword text : String} {item : List Char}
    (h : item ∈ lastItems keyword text) :
    ∃ rest ∈ directives keyword text, ∃ body, between? '[' ']' rest = some body ∧
      item ∈ body.splitOn ',' := by
  rw [lastItems] at h
  cases hlast : ((directives keyword text).filterMap listItems?).getLast? with
  | none => simp [hlast] at h
  | some items =>
    rw [hlast, Option.getD_some] at h
    obtain ⟨rest, hrest, hitems⟩ := List.mem_filterMap.mp (List.mem_of_getLast? hlast)
    obtain ⟨body, hbody, rfl⟩ := Option.map_eq_some_iff.mp hitems
    exact ⟨rest, hrest, body, hbody, h⟩

theorem lineFeed_not_mem_of_mem_lastItems {keyword text : String} {item : List Char}
    (h : item ∈ lastItems keyword text) : '\n' ∉ item := by
  obtain ⟨rest, hrest, body, hbody, hitem⟩ := exists_directive_of_mem_lastItems h
  exact fun hm => lineFeed_not_mem_of_mem_directives hrest
    (mem_of_mem_between? hbody (of_mem_splitOn hitem hm).2)

/-- So is every category. -/
theorem Chart.lineFeed_not_mem_category (text : String) :
    ∀ label ∈ (ofText text).categories, '\n' ∉ label.toList := by
  rw [categories_ofText]
  intro label hlabel
  obtain ⟨item, hitem, rfl⟩ := List.mem_map.mp hlabel
  rw [Function.comp_apply, String.toList_ofList]
  exact fun hm => lineFeed_not_mem_of_mem_lastItems hitem (mem_of_mem_trimWhile hm)

end LineChart
