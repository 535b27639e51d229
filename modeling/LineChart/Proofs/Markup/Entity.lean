import Mathlib.Data.List.Basic
import LineChart.Markup.Entity

namespace LineChart.Markup

theorem replaceChar_append (c : Char) (image s t : List Char) :
    replaceChar c image (s ++ t) = replaceChar c image s ++ replaceChar c image t :=
  List.flatMap_append

/-- The replacements of any table, in its order. -/
def replaceAll (table : List (Char × List Char)) (s : List Char) : List Char :=
  table.foldl (fun s (c, image) => replaceChar c image s) s

theorem replaceAll_append (table : List (Char × List Char)) (s t : List Char) :
    replaceAll table (s ++ t) = replaceAll table s ++ replaceAll table t := by
  unfold replaceAll
  induction table generalizing s t with
  | nil => rfl
  | cons entry table ih => simp only [List.foldl_cons, replaceChar_append, ih]

theorem replaceAll_of_not_mem {c : Char} {table : List (Char × List Char)}
    (h : c ∉ table.map Prod.fst) : replaceAll table [c] = [c] := by
  induction table with
  | nil => rfl
  | cons entry table ih =>
    obtain ⟨d, image⟩ := entry
    rw [List.map_cons, List.mem_cons, not_or] at h
    have hfirst : replaceChar d image [c] = [c] := by simp [replaceChar, h.1]
    change replaceAll table (replaceChar d image [c]) = [c]
    rw [hfirst]
    exact ih h.2

/-- The replacements are made character by character. -/
theorem escape_cons (c : Char) (s : List Char) : escape (c :: s) = escape [c] ++ escape s :=
  replaceAll_append entities [c] s

theorem escape_of_plain {c : Char} (h : c ∉ entities.map Prod.fst) : escape [c] = [c] :=
  replaceAll_of_not_mem h

/-- Every character is a plain one or one of the five with an entity. -/
theorem plain_or_special (c : Char) :
    c ∉ entities.map Prod.fst ∨ c = '&' ∨ c = '<' ∨ c = '>' ∨ c = '"' ∨ c = '\'' := by
  by_cases h : c ∈ entities.map Prod.fst
  · exact .inr (by simpa [entities] using h)
  · exact .inl h

theorem unescape_cons_of_ne {c : Char} (h : c ≠ '&') (s : List Char) :
    unescape (c :: s) = c :: unescape s := by
  conv_lhs => unfold unescape
  split <;> simp_all

theorem unescape_escape_append (c : Char) (t : List Char) :
    unescape (escape [c] ++ t) = c :: unescape t := by
  rcases plain_or_special c with hc | rfl | rfl | rfl | rfl | rfl
  · have hne : c ≠ '&' := by
      rintro rfl
      exact hc (by decide)
    rw [escape_of_plain hc, List.singleton_append, unescape_cons_of_ne hne]
  all_goals rfl

/-- The reader undoes what the writer escapes. -/
theorem unescape_escape (s : List Char) : unescape (escape s) = s := by
  induction s with
  | nil => rfl
  | cons c s ih => rw [escape_cons, unescape_escape_append, ih]

/-- Nothing that must be replaced is left, but for the ampersands of the entities. -/
theorem not_mem_escape {c : Char} (hc : c ∈ entities.map Prod.fst) (hne : c ≠ '&')
    (s : List Char) : c ∉ escape s := by
  have hspecial : c = '<' ∨ c = '>' ∨ c = '"' ∨ c = '\'' := by simpa [entities, hne] using hc
  have hsingle : ∀ d, c ∉ escape [d] := by
    intro d
    rcases plain_or_special d with hd | rfl | rfl | rfl | rfl | rfl
    · rw [escape_of_plain hd, List.mem_singleton]
      rintro rfl
      exact hd hc
    all_goals rcases hspecial with rfl | rfl | rfl | rfl <;> decide
  induction s with
  | nil => exact List.not_mem_nil
  | cons d s ih =>
    rw [escape_cons, List.mem_append, not_or]
    exact ⟨hsingle d, ih⟩

end LineChart.Markup
