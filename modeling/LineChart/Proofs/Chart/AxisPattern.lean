import LineChart.Chart.AxisPattern
import LineChart.Chart.Reading
import LineChart.Proofs.Chart.Range
import LineChart.Proofs.Text.Pattern

namespace LineChart

open Text Pattern

variable {β : Type}

/-! ## Parts of a range -/

theorem first_digitsPattern {k : Match → Option β} (h : Settles isDecimalDigit k) (s : List Char) :
    digitsPattern.first s k =
      if s.takeWhile isDecimalDigit = [] then none
      else k ⟨s.takeWhile isDecimalDigit, [], s.dropWhile isDecimalDigit⟩ := by
  rw [digitsPattern, first_seq]
  by_cases hs : Halts isDecimalDigit s
  · rw [first_one_of_halts hs, if_pos (takeWhile_of_halts hs)]
  · obtain ⟨c, t, rfl, hc⟩ := exists_cons_of_not_halts hs
    have hrest : Settles isDecimalDigit fun n => k (Match.append ⟨[c], [], t⟩ n) :=
      h.imp (fun hk m hm => hk _ hm) fun hk m => hk _
    rw [first_one_of_pos hc, first_many hrest, List.takeWhile_cons_of_pos hc,
      List.dropWhile_cons_of_pos hc, if_neg (List.cons_ne_nil _ _)]
    rfl

theorem first_fraction {k : Match → Option β} (h : Settles continuesBound k) (s : List Char) :
    (optional (char '.' ++ digitsPattern)).first s k =
      k ⟨(boundFraction s).1, [], (boundFraction s).2⟩ := by
  rw [first_optional, first_seq]
  by_cases hs : Halts (· == '.') s
  · rw [first_char_of_halts hs, boundFraction_of_halts hs, Option.none_or]
  · obtain ⟨c, t, rfl, hc⟩ := exists_cons_of_not_halts hs
    obtain rfl := beq_iff_eq.mp hc
    have hdigits : Settles isDecimalDigit fun n => k (Match.append ⟨['.'], [], t⟩ n) :=
      (h.mono fun c hc => by simp [continuesBound, hc]).imp (fun hk m hm => hk _ hm)
        fun hk m => hk _
    rw [first_char, first_digitsPattern hdigits, boundFraction]
    split
    · rfl
    · -- without its fraction a bound would have to end at the point
      exact h.or_eq _ fun hhalt => by simp [continuesBound] at hhalt

/-- A text starts with one character alone. -/
theorem halts_of_not_halts {p q : Char → Bool} {s : List Char} (h : ¬Halts p s)
    (hpq : ∀ c, p c → q c = false) : Halts q s := by
  obtain ⟨c, t, rfl, hc⟩ := exists_cons_of_not_halts h
  exact halts_cons.mpr (hpq c hc)

/-- Only a hyphen that stands there is taken, and it must be. -/
theorem first_sign {k : Match → Option β} (h : ∀ m, ¬Halts (· == '-') m.rest → k m = none)
    (s : List Char) :
    (optional (char '-')).first s k = k ⟨(splitMinus s).1, [], (splitMinus s).2⟩ := by
  rw [first_optional]
  by_cases hs : Halts (· == '-') s
  · rw [first_char_of_halts hs, splitMinus_of_halts hs, Option.none_or]
  · rw [h ⟨[], [], s⟩ hs, Option.or_none]
    obtain ⟨c, t, rfl, hc⟩ := exists_cons_of_not_halts hs
    obtain rfl := beq_iff_eq.mp hc
    exact first_char '-' t k

/-- A bound is taken as far as it goes. -/
theorem first_boundPattern {k : Match → Option β} (h : Settles continuesBound k) (s : List Char) :
    boundPattern.first s k = (bound? s).bind fun b => k ⟨b.1, [], b.2⟩ := by
  have hfraction : (fun m : Match => (optional (char '.' ++ digitsPattern)).first m.rest
      fun n => k (m.append n)) =
      fun m => k (m.append ⟨(boundFraction m.rest).1, [], (boundFraction m.rest).2⟩) := by
    funext m
    have hm : Settles continuesBound fun n => k (m.append n) :=
      h.imp (fun hk n hn => hk _ hn) fun hk n => hk _
    exact first_fraction hm m.rest
  have hdigits : ∀ m : Match, Settles isDecimalDigit fun n =>
      k ((m.append n).append ⟨(boundFraction n.rest).1, [], (boundFraction n.rest).2⟩) := by
    intro m
    refine h.imp (fun hk n hn => hk _ fun hhalt => hn ?_) fun hk n => hk _
    -- no fraction starts with a digit, so the digit is still there behind it
    have hpoint : Halts (· == '.') n.rest :=
      halts_of_not_halts hn fun c hc => beq_eq_false_iff_ne.mpr fun heq =>
        absurd (heq ▸ hc) (by decide)
    have hrest : Halts continuesBound (boundFraction n.rest).2 := hhalt
    rw [boundFraction_of_halts hpoint] at hrest
    exact hrest.mono fun c hc => by simp [continuesBound, hc]
  rw [boundPattern, first_seq, hfraction, first_seq]
  have hsign : (fun m : Match => digitsPattern.first m.rest fun n =>
      k ((m.append n).append ⟨(boundFraction n.rest).1, [], (boundFraction n.rest).2⟩)) =
      fun m => (boundDigits? m.taken m.rest).bind fun b => k ⟨b.1, m.groups, b.2⟩ := by
    -- the sign is taken before the digits, which do not depend on it
    funext m
    rw [first_digitsPattern (hdigits m), boundDigits?]
    split
    · rfl
    · simp [Match.append]
  refine (congrArg ((optional (char '-')).first s) hsign).trans (first_sign (fun m hm => ?_) s)
  have hdigit : Halts isDecimalDigit m.rest := halts_of_not_halts hm fun c hc => by
    rw [beq_iff_eq.mp hc]
    decide
  rw [boundDigits?, if_pos (takeWhile_of_halts hdigit)]
  rfl

/-! ## Ranges -/

theorem first_arrowPattern (s : List Char) (k : Match → Option β) :
    arrowPattern.first s k =
      ("-->".toList.isPrefixOf? s).bind fun t => k ⟨"-->".toList, [], t⟩ := by
  have hcons : ∀ (c : Char) (cs u : List Char),
      (c :: cs).isPrefixOf? u = ([c].isPrefixOf? u).bind cs.isPrefixOf? := by
    intro c cs u
    cases u with
    | nil => rfl
    | cons d u =>
      simp only [List.isPrefixOf?]
      split <;> rfl
  have harrow : "-->".toList.isPrefixOf? s = (['-'].isPrefixOf? s).bind fun t =>
      (['-'].isPrefixOf? t).bind fun u => ['>'].isPrefixOf? u := by
    change ['-', '-', '>'].isPrefixOf? s = _
    rw [hcons]
    congr 1
    funext t
    exact hcons '-' ['>'] t
  rw [arrowPattern, first_seq, first_seq, harrow, Option.bind_assoc]
  simp only [first_char_eq, Option.bind_assoc]
  rfl

/-- The bound that a text begins with, once blanks are skipped, behind the groups found before. -/
def highAfter (groups : List (List Char)) (s : List Char) : Option (List (List Char)) :=
  (bound? (s.dropWhile isBlank)).map fun b => groups ++ [b.1]

/-- Neither a bound nor an arrow starts with a blank. -/
theorem start_of_isBlank {s : List Char} (h : ¬Halts isBlank s) :
    bound? s = none ∧ "-->".toList.isPrefixOf? s = none := by
  obtain ⟨c, t, rfl, hc⟩ := exists_cons_of_not_halts h
  have hminus : c ≠ '-' := fun heq => absurd (heq ▸ hc) (by decide)
  refine ⟨bound?_of_halts (halts_cons.mpr (by simpa using hminus))
    (halts_cons.mpr (isDecimalDigit_eq_false_of_isBlank hc)), ?_⟩
  simp [List.isPrefixOf?, Ne.symm hminus]

theorem first_highAfter (m : Match) :
    ((many isBlank).first m.rest fun n => (group boundPattern).first (m.append n).rest fun o =>
      some ((m.append n).append o).groups) = highAfter m.groups m.rest := by
  have hhigh : (fun n : Match => (group boundPattern).first (m.append n).rest fun o =>
      some ((m.append n).append o).groups) =
      fun n => (bound? n.rest).map fun b => m.groups ++ n.groups ++ [b.1] := by
    funext n
    rw [first_group, first_boundPattern (.inr fun _ => rfl)]
    exact Option.map_eq_bind.symm
  have hblank : Settles isBlank fun n : Match =>
      (bound? n.rest).map fun b => m.groups ++ n.groups ++ [b.1] := by
    refine .inl fun n hn => ?_
    simp only [(start_of_isBlank hn).1, Option.map_none]
  rw [hhigh, first_many hblank, highAfter, List.append_nil]

/-- An arrow and a bound that a text begins with, once blanks are skipped. -/
def arrowAfter (groups : List (List Char)) (s : List Char) : Option (List (List Char)) :=
  ("-->".toList.isPrefixOf? (s.dropWhile isBlank)).bind (highAfter groups)

theorem first_arrowAfter (m : Match) :
    ((many isBlank).first m.rest fun n => arrowPattern.first (m.append n).rest fun o =>
      highAfter ((m.append n).append o).groups ((m.append n).append o).rest) =
      arrowAfter m.groups m.rest := by
  have harrow : (fun n : Match => arrowPattern.first (m.append n).rest fun o =>
      highAfter ((m.append n).append o).groups ((m.append n).append o).rest) =
      fun n => ("-->".toList.isPrefixOf? n.rest).bind (highAfter (m.groups ++ n.groups)) := by
    funext n
    rw [first_arrowPattern]
    simp only [Match.append, List.append_nil]
  have hblank : Settles isBlank fun n : Match =>
      ("-->".toList.isPrefixOf? n.rest).bind (highAfter (m.groups ++ n.groups)) := by
    refine .inl fun n hn => ?_
    simp only [(start_of_isBlank hn).2, Option.bind_none]
  rw [harrow, first_many hblank, arrowAfter, List.append_nil]

/-- No arrow follows where a bound could go on. -/
theorem settles_arrowAfter :
    Settles continuesBound fun m : Match => arrowAfter (m.taken :: m.groups) m.rest := by
  refine .inl fun m hm => ?_
  obtain ⟨c, t, hct, hc⟩ := exists_cons_of_not_halts hm
  have hblank : isBlank c = false := by
    apply Bool.eq_false_iff.mpr
    intro hb
    simp [continuesBound_eq_false_of_isBlank hb] at hc
  have hminus : c ≠ '-' := fun heq => absurd (heq ▸ hc) (by decide)
  simp only [arrowAfter, hct, dropWhile_of_halts (halts_cons.mpr hblank)]
  simp [List.isPrefixOf?, Ne.symm hminus]

theorem first_rangePattern (s : List Char) :
    (rangePattern.first s fun m => some m.groups) =
      (rangeAt? s).map fun (low, high) => [low, high] := by
  rw [rangePattern, first_seq, first_seq]
  simp only [first_highAfter]
  rw [first_seq, first_seq]
  simp only [first_arrowAfter]
  rw [first_group, first_boundPattern settles_arrowAfter]
  simp only [rangeAt?, arrowAfter, highAfter, Option.bind_eq_bind, Option.map_bind, Option.pure_def]
  congr 1
  funext low
  simp only [Function.comp_apply, Option.map_bind]
  congr 1
  funext rest
  exact Option.map_eq_bind

theorem captures?_rangePattern (s : List Char) :
    rangePattern.captures? s = (findRange? s).map fun (low, high) => [low, high] := by
  induction s with
  | nil => exact (head?_ways _ _).trans (first_rangePattern [])
  | cons c s ih =>
    rw [captures?_cons, first_rangePattern, ih, findRange?]
    cases rangeAt? (c :: s) <;> rfl

/-! ## Value axes -/

/-- Within a line the patterns find what a statement sets. -/
theorem Chart.update_yAxis (chart : Chart Float) {rest : List Char} (h : '\n' ∉ rest) :
    chart.update (.yAxis rest) = { chart with valueAxis := chart.valueAxis.revise rest } := by
  rw [update, ValueAxis.revise, captures?_rangePattern, captures?_enclosed '"' '"' h]
  simp only [Statement.range?, Statement.label?]
  cases findRange? (hyphenated rest) <;> cases between? '"' '"' rest <;> rfl

end LineChart
