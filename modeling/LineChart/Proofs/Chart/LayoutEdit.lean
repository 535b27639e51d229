import Mathlib.Logic.Relation
import LineChart.Proofs.Chart.Reading

namespace LineChart

open Text

def AtLineStart (before : List Char) : Prop := before = [] ∨ ∃ s, before = s ++ ['\n']

def AtLineEnd (after : List Char) : Prop := after = [] ∨ ∃ s, after = '\n' :: s

/-- An edit that only adds to the layout of a text; it may be undone as well. -/
inductive LayoutEdit : List Char → List Char → Prop
  /-- A new line that is blank or has no keyword. -/
  | ignoredLine (before line after : List Char) (hstart : AtLineStart before) (hline : '\n' ∉ line)
      (hother : Statement.ofLine (trimPadding line) = .other) :
      LayoutEdit (before ++ after) (before ++ (line ++ '\n' :: after))
  | paddingInFront (before pad after : List Char) (hstart : AtLineStart before)
      (hpad : ∀ c ∈ pad, isPadding c ∧ c ≠ '\n') :
      LayoutEdit (before ++ after) (before ++ (pad ++ after))
  | paddingBehind (before pad after : List Char) (hend : AtLineEnd after)
      (hpad : ∀ c ∈ pad, isPadding c ∧ c ≠ '\n') :
      LayoutEdit (before ++ after) (before ++ (pad ++ after))
  | carriageReturn (before after : List Char) :
      LayoutEdit (before ++ '\n' :: after) (before ++ '\r' :: '\n' :: after)
  | lastBreak (s : List Char) : LayoutEdit s (s ++ ['\n'])

/-! ## What a text tells -/

/-- The statements of a text that have a keyword. -/
def told (s : List Char) : List Statement :=
  ((chartLines s).map Statement.ofLine).filter (· ≠ .other)

theorem Chart.update_other (chart : Chart Float) : chart.update .other = chart := rfl

theorem foldl_update_filter (statements : List Statement) (chart : Chart Float) :
    (statements.filter (· ≠ .other)).foldl Chart.update chart =
      statements.foldl Chart.update chart := by
  induction statements generalizing chart with
  | nil => rfl
  | cons s statements ih =>
    by_cases h : s = .other
    · rw [h, List.foldl_cons, chart.update_other, ← ih]
      rfl
    · rw [List.filter_cons_of_pos (by simpa using h), List.foldl_cons, List.foldl_cons, ih]

theorem Chart.ofText_eq_foldl_told (text : String) :
    Chart.ofText text = (told text.toList).foldl Chart.update Chart.empty :=
  (foldl_update_filter _ _).symm

theorem told_append_break (s t : List Char) : told (s ++ '\n' :: t) = told s ++ told t := by
  rw [told, chartLines_append, List.map_append, List.filter_append]
  rfl

@[simp] theorem told_nil : told [] = [] := rfl

theorem told_append_of_atLineStart {s : List Char} (h : AtLineStart s) (t : List Char) :
    told (s ++ t) = told s ++ told t := by
  obtain rfl | ⟨s, rfl⟩ := h
  · rfl
  · have hs : told (s ++ ['\n']) = told s := by
      rw [told_append_break, told_nil, List.append_nil]
    rw [List.append_assoc, hs]
    exact told_append_break s t

theorem told_append_of_atLineEnd (s : List Char) {t : List Char} (h : AtLineEnd t) :
    told (s ++ t) = told s ++ told t := by
  obtain rfl | ⟨t, rfl⟩ := h
  · rw [List.append_nil, told_nil, List.append_nil]
  · have ht : told ('\n' :: t) = told t := told_append_break [] t
    rw [ht, told_append_break]

/-! ## Single lines -/

theorem chartLines_of_not_mem {l : List Char} (h : '\n' ∉ l) :
    chartLines l = [trimPadding l].filter (· ≠ []) := by
  rw [chartLines, List.splitOn_eq_singleton h]
  rfl

theorem told_line {l : List Char} (h : '\n' ∉ l) :
    told l = [Statement.ofLine (trimPadding l)].filter (· ≠ .other) := by
  rw [told, chartLines_of_not_mem h]
  by_cases hl : trimPadding l = []
  · rw [hl]
    rfl
  · simp [hl]

/-- The first line of a text and what follows it. -/
theorem exists_firstLine (s : List Char) :
    ∃ line rest, s = line ++ rest ∧ '\n' ∉ line ∧ AtLineEnd rest := by
  refine ⟨s.takeWhile (· != '\n'), s.dropWhile (· != '\n'), List.takeWhile_append_dropWhile.symm,
    fun h => ?_, ?_⟩
  · simpa using List.mem_takeWhile_imp h
  · cases hs : s.dropWhile (· != '\n') with
    | nil => exact .inl rfl
    | cons c rest =>
      have hc := List.head?_dropWhile_not (· != '\n') s
      rw [hs] at hc
      obtain rfl : c = '\n' := by simpa using hc
      exact .inr ⟨rest, rfl⟩

/-- The last line of a text and what stands before it. -/
theorem exists_lastLine (s : List Char) :
    ∃ before line, s = before ++ line ∧ '\n' ∉ line ∧ AtLineStart before := by
  obtain ⟨line, rest, hs, hline, hrest⟩ := exists_firstLine s.reverse
  refine ⟨rest.reverse, line.reverse, ?_, by simpa using hline, ?_⟩
  · rw [← List.reverse_append, ← hs, List.reverse_reverse]
  · obtain rfl | ⟨t, rfl⟩ := hrest
    · exact .inl rfl
    · exact .inr ⟨t.reverse, List.reverse_cons⟩

theorem told_padding_append {pad : List Char} (hpad : ∀ c ∈ pad, isPadding c ∧ c ≠ '\n')
    (s : List Char) : told (pad ++ s) = told s := by
  have hbreak : '\n' ∉ pad := fun h => (hpad _ h).2 rfl
  obtain ⟨line, rest, rfl, hline, hrest⟩ := exists_firstLine s
  have hboth : '\n' ∉ pad ++ line := by
    rw [List.mem_append, not_or]
    exact ⟨hbreak, hline⟩
  rw [← List.append_assoc, told_append_of_atLineEnd _ hrest, told_append_of_atLineEnd _ hrest,
    told_line hboth, told_line hline, trimPadding,
    trimWhile_append_left fun c hc => (hpad c hc).1]
  rfl

theorem told_append_padding {pad : List Char} (hpad : ∀ c ∈ pad, isPadding c ∧ c ≠ '\n')
    (s : List Char) : told (s ++ pad) = told s := by
  have hbreak : '\n' ∉ pad := fun h => (hpad _ h).2 rfl
  obtain ⟨before, line, rfl, hline, hbefore⟩ := exists_lastLine s
  have hboth : '\n' ∉ line ++ pad := by
    rw [List.mem_append, not_or]
    exact ⟨hline, hbreak⟩
  rw [List.append_assoc, told_append_of_atLineStart hbefore, told_append_of_atLineStart hbefore,
    told_line hboth, told_line hline, trimPadding,
    trimWhile_append_right fun c hc => (hpad c hc).1]
  rfl

/-! ## Edits -/

theorem LayoutEdit.told_eq {s t : List Char} (h : LayoutEdit s t) : told s = told t := by
  cases h with
  | ignoredLine before line after hstart hline hother =>
    have htold : told line = [] := by
      rw [told_line hline, hother]
      rfl
    rw [told_append_of_atLineStart hstart, told_append_of_atLineStart hstart,
      told_append_break, htold, List.nil_append]
  | paddingInFront before pad after hstart hpad =>
    rw [told_append_of_atLineStart hstart, told_append_of_atLineStart hstart,
      told_padding_append hpad]
  | paddingBehind before pad after hend hpad =>
    rw [← List.append_assoc, told_append_of_atLineEnd _ hend, told_append_of_atLineEnd _ hend,
      told_append_padding hpad]
  | carriageReturn before after =>
    have hreturn : ∀ c ∈ ['\r'], isPadding c ∧ c ≠ '\n' :=
      List.forall_mem_singleton.mpr (by decide)
    rw [told_append_break, List.append_cons, told_append_break, told_append_padding hreturn]
  | lastBreak s => rw [told_append_break, told_nil, List.append_nil]

theorem told_eq_of_eqvGen {s t : List Char} (h : Relation.EqvGen LayoutEdit s t) :
    told s = told t := by
  induction h with
  | rel s t hedit => exact hedit.told_eq
  | refl s => rfl
  | symm s t _ ih => exact ih.symm
  | trans s t u _ _ ihst ihtu => exact ihst.trans ihtu

/-- Edits of the layout, made and undone in any order, leave the chart of a text as it was. -/
theorem Chart.ofText_layoutEdits {text text' : String}
    (h : Relation.EqvGen LayoutEdit text.toList text'.toList) :
    Chart.ofText text = Chart.ofText text' := by
  rw [ofText_eq_foldl_told, ofText_eq_foldl_told, told_eq_of_eqvGen h]

/-- A blank is taken away; a line break, a blank, a carriage return, a byte order mark and a line
without a keyword come. -/
theorem Chart.ofText_relaidOut :
    Relation.EqvGen LayoutEdit " title X".toList "\uFEFFtitle X\u2003\r\n%\n".toList ∧
    Chart.ofText " title X" = Chart.ofText "\uFEFFtitle X\u2003\r\n%\n" := by
  have hbare : LayoutEdit "title X".toList " title X".toList :=
    .paddingInFront [] [' '] "title X".toList (.inl rfl)
      (List.forall_mem_singleton.mpr (by decide))
  have hbreak : LayoutEdit "title X".toList "title X\n".toList := .lastBreak "title X".toList
  have hbehind : LayoutEdit "title X\n".toList "title X\u2003\n".toList :=
    .paddingBehind "title X".toList ['\u2003'] ['\n'] (.inr ⟨[], rfl⟩)
      (List.forall_mem_singleton.mpr (by decide))
  have hreturn : LayoutEdit "title X\u2003\n".toList "title X\u2003\r\n".toList :=
    .carriageReturn "title X\u2003".toList []
  have hfront : LayoutEdit "title X\u2003\r\n".toList "\uFEFFtitle X\u2003\r\n".toList :=
    .paddingInFront [] ['\uFEFF'] "title X\u2003\r\n".toList (.inl rfl)
      (List.forall_mem_singleton.mpr (by decide))
  have hline : LayoutEdit "\uFEFFtitle X\u2003\r\n".toList
      "\uFEFFtitle X\u2003\r\n%\n".toList :=
    .ignoredLine "\uFEFFtitle X\u2003\r\n".toList ['%'] []
      (.inr ⟨"\uFEFFtitle X\u2003\r".toList, rfl⟩) (by decide) (by decide)
  have hfirst := ((Relation.EqvGen.rel _ _ hbare).symm _ _).trans _ _ _ (.rel _ _ hbreak)
  have hsecond := (hfirst.trans _ _ _ (.rel _ _ hbehind)).trans _ _ _ (.rel _ _ hreturn)
  have h := (hsecond.trans _ _ _ (.rel _ _ hfront)).trans _ _ _ (.rel _ _ hline)
  exact ⟨h, Chart.ofText_layoutEdits h⟩

end LineChart
