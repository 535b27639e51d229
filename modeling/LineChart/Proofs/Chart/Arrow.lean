import Mathlib.Data.List.DropRight
import LineChart.Proofs.Chart.AxisPattern

namespace LineChart

open Text
open Number (LongestPrefix)

/-! ## Arrows -/

def arrow : List Char := "-->".toList

/-- An arrow between these two texts makes a range of them: blanks apart, a digit ends the one and a
bound starts the other. -/
structure IsRangeArrow (before after : List Char) : Prop where
  left : ∃ u c, before.rdropWhile isBlank = u ++ [c] ∧ isDecimalDigit c
  right : StartsBound (after.dropWhile isBlank)

/-- The first arrow of a text that makes a range stands between these two texts. -/
structure FirstArrow (s before after : List Char) : Prop where
  eq : s = before ++ (arrow ++ after)
  isRange : IsRangeArrow before after
  first : ∀ before' after', s = before' ++ (arrow ++ after') → IsRangeArrow before' after' →
    before.length ≤ before'.length

/-- Of the texts of class `P` that `s` ends with, `w` is the longest. -/
structure LongestSuffix {α : Type} (P : List α → Prop) (s w : List α) : Prop where
  mem : P w
  isSuffix : w <:+ s
  longest : ∀ w', P w' → w' <:+ s → w'.length ≤ w.length

/-- No arrow starts within another. -/
theorem arrows_apart {before after before' after' : List Char}
    (h : before' ++ (arrow ++ after') = before ++ (arrow ++ after))
    (hlt : before'.length < before.length) : ∃ v, before = before' ++ (arrow ++ v) := by
  rcases List.append_eq_append_iff.mp h with ⟨v, rfl, hv⟩ | ⟨v, rfl, -⟩
  · -- what lies between the two starts holds the whole of the first arrow
    match v with
    | [] => simp at hlt
    | [_] => simp [arrow] at hv
    | [_, _] => simp [arrow] at hv
    | a :: b :: c :: v =>
      obtain ⟨rfl, rfl, rfl, -⟩ : '-' = a ∧ '-' = b ∧ '>' = c ∧ after' = v ++ (arrow ++ after) := by
        simpa [arrow] using hv
      exact ⟨v, rfl⟩
  · rw [List.length_append] at hlt
    omega

/-! ## The first range -/

/-- No range starts at any of the first `n` places. -/
def NoRangeBefore (s : List Char) (n : Nat) : Prop :=
  ∀ u t, s = u ++ t → u.length < n → rangeAt? t = none

theorem findRange?_eq_some {s : List Char} {bounds : List Char × List Char}
    (h : findRange? s = some bounds) :
    ∃ u t, s = u ++ t ∧ rangeAt? t = some bounds ∧ NoRangeBefore s u.length := by
  -- a range at the first place has nothing before it; any other has that place before it
  induction s with
  | nil => exact absurd h (by simp [findRange?])
  | cons c s ih =>
    rw [findRange?] at h
    cases hr : rangeAt? (c :: s) with
    | some found =>
      rw [hr] at h
      exact ⟨[], c :: s, rfl, hr.trans h, fun u' t' _ hlt => absurd hlt (Nat.not_lt_zero _)⟩
    | none =>
      rw [hr] at h
      obtain ⟨u, t, rfl, ht, hfirst⟩ := ih h
      refine ⟨c :: u, t, rfl, ht, fun u' t' heq hlt => ?_⟩
      cases u' with
      | nil =>
        obtain rfl : c :: (u ++ t) = t' := heq
        exact hr
      | cons d u' => exact hfirst u' t' (List.cons.inj heq).2 (Nat.lt_of_succ_lt_succ hlt)

theorem rangeAt?_of_findRange?_eq_none {u t : List Char} (h : findRange? (u ++ t) = none) :
    rangeAt? t = none := by
  induction u with
  | nil =>
    cases ht : rangeAt? t with
    | none => rfl
    | some bounds => exact absurd (h.symm.trans (findRange?_of_rangeAt? ht)) (by simp)
  | cons c u ih =>
    rw [List.cons_append, findRange?] at h
    cases hr : rangeAt? (c :: (u ++ t)) with
    | none =>
      rw [hr] at h
      exact ih h
    | some bounds => simp [hr] at h

/-- A bound that a text ends with, an arrow and a bound behind it are a range. -/
theorem rangeAt?_of_isBound {low gap after : List Char} (hlow : IsBound low)
    (hgap : ∀ c ∈ gap, isBlank c) (hafter : StartsBound (after.dropWhile isBlank)) :
    ∃ high, rangeAt? (low ++ (gap ++ (arrow ++ after))) = some (low, high) := by
  obtain ⟨high, rest, hhigh⟩ := hafter.exists_bound?
  exact ⟨high, rangeAt?_eq_some_iff.mpr ⟨gap, after, rest, rfl, hlow, hgap, hhigh⟩⟩

/-- In front of an arrow that makes a range, one is found. -/
theorem IsRangeArrow.exists_rangeAt? {before after : List Char} (h : IsRangeArrow before after) :
    ∃ u t bounds, before ++ (arrow ++ after) = u ++ t ∧ u.length < before.length ∧
      rangeAt? t = some bounds := by
  -- the last digit alone is a bound, and the blanks behind it are the gap
  obtain ⟨⟨u, c, hu, hc⟩, hafter⟩ := h
  have hdigit : IsBound [c] := IsBound.mk false (List.cons_ne_nil c [])
    (List.forall_mem_singleton.mpr hc) (List.forall_mem_nil _)
  have hgap : ∀ d ∈ before.rtakeWhile isBlank, isBlank d := fun d hd =>
    List.mem_rtakeWhile_imp hd
  obtain ⟨high, hrange⟩ := rangeAt?_of_isBound hdigit hgap hafter
  have hbefore : before = u ++ ([c] ++ before.rtakeWhile isBlank) := calc
    before = before.rdropWhile isBlank ++ before.rtakeWhile isBlank :=
      List.rdropWhile_append_rtakeWhile.symm
    _ = u ++ ([c] ++ before.rtakeWhile isBlank) := by rw [hu, List.append_assoc]
  refine ⟨u, _, _, ?_, ?_, hrange⟩
  · conv_lhs => rw [hbefore]
    simp only [List.append_assoc]
  · have hlen := congrArg List.length hbefore
    simp only [List.length_append, List.length_singleton] at hlen
    omega

theorem rdropWhile_append_of_blank {s gap : List Char} {c : Char} (hc : isBlank c = false)
    (hgap : ∀ d ∈ gap, isBlank d) : (s ++ [c] ++ gap).rdropWhile isBlank = s ++ [c] := by
  induction gap using List.reverseRecOn with
  | nil => rw [List.append_nil, List.rdropWhile_concat_neg _ _ _ (by simp [hc])]
  | append_singleton gap d ih =>
    rw [List.forall_mem_append, List.forall_mem_singleton] at hgap
    rw [← List.append_assoc, List.rdropWhile_concat_pos _ _ _ hgap.2, ih hgap.1]

section Found

variable {u low gap after : List Char} (hlow : IsBound low) (hgap : ∀ c ∈ gap, isBlank c)
include hlow hgap

/-- A bound ends in a digit, so that the blanks behind it are all that is dropped. -/
theorem rdropWhile_append_gap (u : List Char) :
    (u ++ (low ++ gap)).rdropWhile isBlank = u ++ low := by
  obtain ⟨v, c, rfl, hc⟩ := hlow.exists_concat
  rw [← List.append_assoc, ← List.append_assoc,
    rdropWhile_append_of_blank (isBlank_eq_false_of_isDecimalDigit hc) hgap]

variable (hfirst : NoRangeBefore (u ++ (low ++ gap) ++ (arrow ++ after)) u.length)
include hfirst

/-- An earlier arrow that makes a range would make it in front of `u`'s end, or have its tip in the
bound or the gap. -/
theorem length_le_of_isRangeArrow {before' after' : List Char}
    (heq : u ++ (low ++ gap) ++ (arrow ++ after) = before' ++ (arrow ++ after'))
    (hrange : IsRangeArrow before' after') : (u ++ (low ++ gap)).length ≤ before'.length := by
  by_contra hlt
  obtain ⟨w, hw⟩ := arrows_apart heq.symm (Nat.not_le.mp hlt)
  obtain ⟨u', t', bounds, hu', hlen, hsome⟩ := hrange.exists_rangeAt?
  have hle : u.length ≤ u'.length := by
    by_contra hlt'
    rw [hfirst u' t' (heq.trans hu') (Nat.not_le.mp hlt')] at hsome
    exact absurd hsome (by simp)
  rcases List.append_eq_append_iff.mp hw with ⟨x, -, hx⟩ | ⟨x, rfl, -⟩
  · apply hlow.not_mem_gap hgap (.inr rfl)
    rw [hx]
    simp [arrow]
  · rw [List.length_append] at hle
    omega

/-- With a longer bound in front of the gap a range would start before `u` ends. -/
theorem longestSuffix_low (hafter : StartsBound (after.dropWhile isBlank)) :
    LongestSuffix IsBound (u ++ low) low := by
  refine ⟨hlow, List.suffix_append u low, fun low' hlow' ⟨u', hu'⟩ => ?_⟩
  by_contra hlt
  obtain ⟨high', hsome⟩ := rangeAt?_of_isBound hlow' hgap hafter
  have hstart : u'.length < u.length := by
    have hlen := congrArg List.length hu'
    simp only [List.length_append] at hlen
    omega
  have heq : u ++ (low ++ gap) ++ (arrow ++ after) =
      u' ++ (low' ++ (gap ++ (arrow ++ after))) := by
    rw [← List.append_assoc u', hu']
    simp only [List.append_assoc]
  exact absurd (hsome.symm.trans (hfirst u' _ heq hstart)) (by simp)

end Found

/-- The range that is found stands around the first arrow that makes one, and takes as much as there
is on either side of it. -/
theorem FirstArrow.of_findRange? {s low high : List Char} (h : findRange? s = some (low, high)) :
    ∃ before after, FirstArrow s before after ∧
      LongestSuffix IsBound (before.rdropWhile isBlank) low ∧
      LongestPrefix IsBound (after.dropWhile isBlank) high := by
  obtain ⟨u, t, rfl, ht, hfirst⟩ := findRange?_eq_some h
  obtain ⟨gap, after, rest, rfl, hlow, hgap, hhigh⟩ := rangeAt?_eq_some_iff.mp ht
  have heq : u ++ (low ++ (gap ++ ("-->".toList ++ after))) =
      u ++ (low ++ gap) ++ (arrow ++ after) := by
    simp only [List.append_assoc, arrow]
  have hafter : StartsBound (after.dropWhile isBlank) := by
    obtain ⟨hbound, hrest⟩ := isBound_of_bound? hhigh
    rw [hrest]
    exact hbound.startsBound_append rest
  obtain ⟨v, c, hv, hc⟩ := hlow.exists_concat
  have htrim := rdropWhile_append_gap hlow hgap u
  rw [heq] at hfirst ⊢
  refine ⟨u ++ (low ++ gap), after, ⟨rfl, ⟨⟨u ++ v, c, ?_, hc⟩, hafter⟩, fun _ _ =>
    length_le_of_isRangeArrow hlow hgap hfirst⟩, ?_, longestPrefix_of_bound? hhigh⟩
  · rw [htrim, hv, List.append_assoc]
  · rw [htrim]
    exact longestSuffix_low hlow hgap hfirst hafter

/-- Where no range is found, no arrow makes one. -/
theorem not_isRangeArrow_of_findRange? {s before after : List Char} (h : findRange? s = none)
    (heq : s = before ++ (arrow ++ after)) : ¬IsRangeArrow before after := by
  intro hrange
  obtain ⟨u, t, bounds, ht, -, hsome⟩ := hrange.exists_rangeAt?
  rw [heq, ht] at h
  exact absurd (hsome.symm.trans (rangeAt?_of_findRange?_eq_none h)) (by simp)

/-! ## The meaning of a line -/

/-- What a text says of the bounds: the longest ones on either side of the first arrow that makes a
range, and nothing without such an arrow. -/
inductive ReadsBounds (s : List Char) (old new : ValueAxis Float) : Prop
  | range {before after low high : List Char} (harrow : FirstArrow s before after)
      (hlow : LongestSuffix IsBound (before.rdropWhile isBlank) low)
      (hhigh : LongestPrefix IsBound (after.dropWhile isBlank) high)
      (hmin : new.min = Number.ofToken low) (hmax : new.max = Number.ofToken high)
  | none (hnone : ∀ before after, s = before ++ (arrow ++ after) → ¬IsRangeArrow before after)
      (hmin : new.min = old.min) (hmax : new.max = old.max)

/-- What a text says of the label: what stands between its first two quotes, and nothing if there
are fewer. -/
inductive ReadsLabel (s : List Char) (old new : ValueAxis Float) : Prop
  | quoted {before body after : List Char} (heq : s = before ++ '"' :: (body ++ '"' :: after))
      (hbefore : '"' ∉ before) (hbody : '"' ∉ body) (hlabel : new.label = String.ofList body)
  | none (hfew : s.count '"' < 2) (hlabel : new.label = old.label)

/-- Two quotes are needed for a label. -/
theorem between?_quotes (s : List Char) :
    (∃ before body after, s = before ++ '"' :: (body ++ '"' :: after) ∧ '"' ∉ before ∧
      '"' ∉ body ∧ between? '"' '"' s = some body) ∨
    (s.count '"' < 2 ∧ between? '"' '"' s = none) := by
  by_cases hopen : '"' ∈ s
  · obtain ⟨before, rest, rfl, hbefore⟩ := List.eq_append_cons_of_mem hopen
    by_cases hclose : '"' ∈ rest
    · obtain ⟨body, after, rfl, hbody⟩ := List.eq_append_cons_of_mem hclose
      exact .inl ⟨before, body, after, rfl, hbefore, hbody, between?_append hbefore hbody after⟩
    · right
      refine ⟨?_, ?_⟩
      · simp [List.count_append, List.count_eq_zero_of_not_mem hbefore,
          List.count_eq_zero_of_not_mem hclose]
      · rw [between?_append_cons hbefore, if_neg hclose]
  · exact .inr ⟨by simp [List.count_eq_zero_of_not_mem hopen], between?_of_not_mem '"' hopen⟩

theorem readsBounds_update (chart : Chart Float) (rest : List Char) :
    ReadsBounds (hyphenated rest) chart.valueAxis (chart.update (.yAxis rest)).valueAxis := by
  rw [Chart.update]
  simp only [Statement.range?, Statement.label?]
  cases hfind : findRange? (hyphenated rest) with
  | none => exact .none (fun _ _ heq => not_isRangeArrow_of_findRange? hfind heq) rfl rfl
  | some bounds =>
    obtain ⟨before, after, harrow, hlow, hhigh⟩ := FirstArrow.of_findRange? hfind
    exact .range harrow hlow hhigh rfl rfl

theorem readsLabel_update (chart : Chart Float) (rest : List Char) :
    ReadsLabel rest chart.valueAxis (chart.update (.yAxis rest)).valueAxis := by
  rw [Chart.update]
  simp only [Statement.range?, Statement.label?]
  rcases between?_quotes rest with ⟨before, body, after, heq, hbefore, hbody, h⟩ | ⟨hfew, h⟩
  · rw [h]
    exact .quoted heq hbefore hbody rfl
  · rw [h]
    exact .none hfew rfl

/-- A value axis takes its bounds from the first arrow that makes a range and its label from between
the first two quotes, each on its own; whatever else the chart has stays. -/
theorem Chart.update_yAxis_reads (chart : Chart Float) {rest : List Char} (h : '\n' ∉ rest) :
    ∃ axis, chart.update (.yAxis rest) = { chart with valueAxis := axis } ∧
      chart.valueAxis.revise rest = axis ∧
      ReadsBounds (hyphenated rest) chart.valueAxis axis ∧ ReadsLabel rest chart.valueAxis axis := by
  have hupdate := chart.update_yAxis h
  have hbounds := readsBounds_update chart rest
  have hlabel := readsLabel_update chart rest
  rw [hupdate] at hbounds hlabel
  exact ⟨_, hupdate, rfl, hbounds, hlabel⟩

/-- The arrow in the quotes makes no range, and the one behind them takes no more of the points than
fits on either side. -/
theorem Chart.update_yAxis_reads_pointed :
    let rest := "\"9 --> y\" 1.2.3 --> \u22124.5.6".toList
    '\n' ∉ rest ∧ ∃ axis, Chart.empty.update (.yAxis rest) = { Chart.empty with valueAxis := axis } ∧
      Chart.empty.valueAxis.revise rest = axis ∧
      ReadsBounds (hyphenated rest) .percent axis ∧ ReadsLabel rest .percent axis ∧
      axis = ⟨"9 --> y", Number.ofToken "2.3".toList, Number.ofToken "-4.5".toList⟩ := by
  intro rest
  have h : '\n' ∉ rest := by decide
  have hrange : (Statement.yAxis rest).range? =
      some (Number.ofToken "2.3".toList, Number.ofToken "-4.5".toList) := by
    have hfind : findRange? (hyphenated rest) = some ("2.3".toList, "-4.5".toList) := by decide
    rw [Statement.range?, hfind]
    rfl
  have hlabel : (Statement.yAxis rest).label? = some "9 --> y" := by decide
  obtain ⟨axis, hupdate, hrevise, hbounds, hquoted⟩ := Chart.update_yAxis_reads .empty h
  refine ⟨h, axis, hupdate, hrevise, hbounds, hquoted, ?_⟩
  rw [Chart.update, hrange, hlabel] at hupdate
  exact (congrArg Chart.valueAxis hupdate).symm

end LineChart
