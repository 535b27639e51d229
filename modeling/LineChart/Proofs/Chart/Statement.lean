import Mathlib.Data.List.Basic
import Mathlib.Data.List.TakeWhile
import LineChart.Chart.Printing
import LineChart.Chart.Statement
import LineChart.Proofs.Text.Span

namespace LineChart

open Text

/-! ## Keywords -/

theorem Statement.ofLine_title (rest : List Char) :
    Statement.ofLine ("title".toList ++ rest) = .title rest := by
  simp [Statement.ofLine, List.isPrefixOf?]

theorem Statement.ofLine_xAxis (rest : List Char) :
    Statement.ofLine ("x-axis".toList ++ rest) = .xAxis rest := by
  simp [Statement.ofLine, List.isPrefixOf?]

theorem Statement.ofLine_yAxis (rest : List Char) :
    Statement.ofLine ("y-axis".toList ++ rest) = .yAxis (trim rest) := by
  simp [Statement.ofLine, List.isPrefixOf?]

theorem Statement.ofLine_line (rest : List Char) :
    Statement.ofLine ("line".toList ++ rest) = .line rest := by
  simp [Statement.ofLine, List.isPrefixOf?]

/-! ## Groups and their items -/

theorem intercalate_comma_blank (item : List Char) (items : List (List Char)) :
    List.intercalate ", ".toList (item :: items) =
      List.intercalate [','] (item :: items.map (' ' :: ·)) := by
  induction items generalizing item with
  | nil => simp
  | cons next items ih =>
    rw [List.intercalate_cons_cons, ih next, List.map_cons, List.intercalate_cons_cons,
      List.intercalate_cons_cons_left]
    simp

/-- What does not care for a blank in front finds the items of a list as they were. -/
theorem map_splitOn_intercalate {β : Type} {f : List Char → β} {items : List (List Char)}
    (hne : items ≠ []) (hcomma : ∀ item ∈ items, ',' ∉ item)
    (hf : ∀ item ∈ items, f (' ' :: item) = f item) :
    ((List.intercalate ", ".toList items).splitOn ',').map f = items.map f := by
  obtain ⟨item, items, rfl⟩ := List.exists_cons_of_ne_nil hne
  rw [intercalate_comma_blank, List.splitOn_intercalate ',' _ (List.cons_ne_nil _ _),
    List.map_cons, List.map_cons, List.map_map]
  · congr 1
    exact List.map_congr_left fun item hm => hf item (List.mem_cons_of_mem _ hm)
  · intro l hl
    rcases List.mem_cons.mp hl with rfl | hl
    · exact hcomma l List.mem_cons_self
    · obtain ⟨item, hm, rfl⟩ := List.mem_map.mp hl
      simpa using hcomma item (List.mem_cons_of_mem _ hm)

end LineChart
