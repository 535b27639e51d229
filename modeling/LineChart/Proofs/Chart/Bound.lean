import Mathlib.Data.List.Basic
import LineChart.Chart.Range
import LineChart.Proofs.Number.Grammar

namespace LineChart

open Text
open Number (LongestPrefix pointed signChars)

/-! ## Decimal digits -/

theorem isDecimalDigit_of_isDigit {c : Char} (h : c.isDigit) : isDecimalDigit c := by
  have hd : 48 ≤ c.toNat ∧ c.toNat ≤ 57 := Char.isDigit_iff_toNat.mp h
  simp only [isDecimalDigit, inRanges, decimalDigitRanges, List.any_cons, Bool.or_eq_true]
  left
  simpa using hd

theorem isDecimalDigit_eq_false_of_isBlank {c : Char} (h : isBlank c) : isDecimalDigit c = false :=
  inRanges_eq_false_of_disjoint (by decide) h

theorem isBlank_eq_false_of_isDecimalDigit {c : Char} (h : isDecimalDigit c) : isBlank c = false :=
  inRanges_eq_false_of_disjoint (by decide) h

theorem ne_of_isDecimalDigit {c d : Char} (hc : isDecimalDigit c) (hd : isDecimalDigit d = false) :
    c ≠ d := by
  rintro rfl
  exact absurd hc (by simp [hd])

/-! ## Bounds by parts -/

/-- A hyphen in front, and what follows it. -/
def splitMinus (s : List Char) : List Char × List Char :=
  match s with
  | '-' :: rest => (['-'], rest)
  | _ => ([], s)

/-- What `bound?` does after the hyphen. -/
def boundDigits? (sign digits : List Char) : Option (List Char × List Char) :=
  if digits.takeWhile isDecimalDigit = [] then none
  else some (sign ++ digits.takeWhile isDecimalDigit ++
      (boundFraction (digits.dropWhile isDecimalDigit)).1,
    (boundFraction (digits.dropWhile isDecimalDigit)).2)

theorem bound?_eq (s : List Char) : bound? s = boundDigits? (splitMinus s).1 (splitMinus s).2 := rfl

theorem splitMinus_of_halts {s : List Char} (h : Halts (· == '-') s) : splitMinus s = ([], s) := by
  unfold splitMinus
  split
  · simp at h
  · rfl

theorem splitMinus_signChars (negative : Bool) {s : List Char} (h : Halts (· == '-') s) :
    splitMinus (signChars negative ++ s) = (signChars negative, s) := by
  cases negative
  · exact splitMinus_of_halts h
  · rfl

theorem boundFraction_of_halts {s : List Char} (h : Halts (· == '.') s) :
    boundFraction s = ([], s) := by
  unfold boundFraction
  split
  · simp at h
  · rfl

theorem bound?_of_halts {s : List Char} (hm : Halts (· == '-') s) (hd : Halts isDecimalDigit s) :
    bound? s = none := by
  rw [bound?_eq, splitMinus_of_halts hm, boundDigits?, if_pos (takeWhile_of_halts hd)]

/-! ## The grammar of bounds -/

/-- `-? D+ ( . D+ )?` with the digits of any script. -/
inductive IsBound : List Char → Prop
  | mk (negative : Bool) {whole fraction : List Char} (hne : whole ≠ [])
      (hwhole : ∀ c ∈ whole, isDecimalDigit c) (hfraction : ∀ c ∈ fraction, isDecimalDigit c) :
      IsBound (signChars negative ++ (whole ++ pointed fraction))

/-- The characters that a bound may go on with behind its first digit. -/
def continuesBound (c : Char) : Bool := isDecimalDigit c || c == '.'

theorem continuesBound_eq_false_of_isBlank {c : Char} (h : isBlank c) :
    continuesBound c = false := by
  have hpoint : c ≠ '.' := by
    rintro rfl
    exact absurd h (by decide)
  simp [continuesBound, isDecimalDigit_eq_false_of_isBlank h, hpoint]

theorem Halts.isDecimalDigit {t : List Char} (h : Halts continuesBound t) :
    Halts isDecimalDigit t := h.mono fun c hc => by simp [continuesBound, hc]

theorem halts_pointed {fraction t : List Char} (ht : Halts isDecimalDigit t) :
    Halts isDecimalDigit (pointed fraction ++ t) := by
  unfold pointed
  split
  · exact ht
  · exact halts_cons.mpr (by decide)

theorem halts_minus_of_digits {digits : List Char} (hne : digits ≠ [])
    (h : ∀ c ∈ digits, isDecimalDigit c) (t : List Char) : Halts (· == '-') (digits ++ t) := by
  obtain ⟨c, u, rfl⟩ := List.exists_cons_of_ne_nil hne
  have hc : c ≠ '-' := ne_of_isDecimalDigit (h c List.mem_cons_self) (by decide)
  exact halts_cons.mpr (beq_eq_false_iff_ne.mpr hc)

theorem boundFraction_pointed {fraction t : List Char} (hf : ∀ c ∈ fraction, isDecimalDigit c)
    (ht : Halts continuesBound t) : boundFraction (pointed fraction ++ t) = (pointed fraction, t) := by
  by_cases h : fraction = []
  · subst h
    exact boundFraction_of_halts (ht.mono fun c hc => by simp [continuesBound, hc])
  · simp only [pointed, if_neg h, List.cons_append, boundFraction,
      takeWhile_append_of_halts hf ht.isDecimalDigit, dropWhile_append_of_halts hf ht.isDecimalDigit]

/-- A bound is read as a whole where it cannot go on. -/
theorem IsBound.bound?_append {b : List Char} (hb : IsBound b) {t : List Char}
    (ht : Halts continuesBound t) : bound? (b ++ t) = some (b, t) := by
  obtain @⟨negative, whole, fraction, hne, hwhole, hfraction⟩ := hb
  have hhalt : Halts isDecimalDigit (pointed fraction ++ t) := halts_pointed ht.isDecimalDigit
  have hminus := halts_minus_of_digits hne hwhole
  -- the sign goes first, then the digits on either side of the point
  rw [List.append_assoc, List.append_assoc, bound?_eq, splitMinus_signChars _ (hminus _),
    boundDigits?, takeWhile_append_of_halts hwhole hhalt, if_neg hne,
    dropWhile_append_of_halts hwhole hhalt, boundFraction_pointed hfraction ht, List.append_assoc]

theorem IsBound.of_mem {b : List Char} (h : IsBound b) {c : Char} (hc : c ∈ b) :
    isDecimalDigit c ∨ c = '-' ∨ c = '.' := by
  obtain @⟨negative, whole, fraction, -, hwhole, hfraction⟩ := h
  rcases List.mem_append.mp hc with hc | hc
  · cases negative
    · exact absurd hc List.not_mem_nil
    · exact .inr (.inl (List.mem_singleton.mp hc))
  rcases List.mem_append.mp hc with hc | hc
  · exact .inl (hwhole c hc)
  · unfold pointed at hc
    split at hc
    · exact absurd hc List.not_mem_nil
    · rcases List.mem_cons.mp hc with rfl | hc
      · exact .inr (.inr rfl)
      · exact .inl (hfraction c hc)

/-- A digit ends a bound. -/
theorem IsBound.exists_concat {b : List Char} (h : IsBound b) :
    ∃ v c, b = v ++ [c] ∧ isDecimalDigit c := by
  obtain @⟨negative, whole, fraction, hne, hwhole, hfraction⟩ := h
  by_cases hf : fraction = []
  · refine ⟨signChars negative ++ whole.dropLast, whole.getLast hne, ?_,
      hwhole _ (List.getLast_mem hne)⟩
    rw [hf, List.append_assoc, List.dropLast_append_getLast]
    simp [pointed]
  · refine ⟨signChars negative ++ (whole ++ '.' :: fraction.dropLast), fraction.getLast hf, ?_,
      hfraction _ (List.getLast_mem hf)⟩
    simp [pointed, hf, List.dropLast_append_getLast]

theorem exists_splitMinus (s : List Char) : ∃ (negative : Bool) (rest : List Char),
    splitMinus s = (signChars negative, rest) ∧ s = signChars negative ++ rest := by
  by_cases hs : Halts (· == '-') s
  · exact ⟨false, s, splitMinus_of_halts hs, rfl⟩
  · obtain ⟨c, t, rfl, hc⟩ := exists_cons_of_not_halts hs
    obtain rfl := beq_iff_eq.mp hc
    exact ⟨true, t, rfl, rfl⟩

theorem exists_boundFraction (s : List Char) : ∃ fraction rest,
    boundFraction s = (pointed fraction, rest) ∧ s = pointed fraction ++ rest ∧
      ∀ c ∈ fraction, isDecimalDigit c := by
  by_cases hs : Halts (· == '.') s
  · exact ⟨[], s, boundFraction_of_halts hs, rfl, List.forall_mem_nil _⟩
  · obtain ⟨c, t, rfl, hc⟩ := exists_cons_of_not_halts hs
    obtain rfl := beq_iff_eq.mp hc
    rw [boundFraction]
    split
    · exact ⟨[], _, rfl, rfl, List.forall_mem_nil _⟩
    · next hne =>
      refine ⟨t.takeWhile isDecimalDigit, t.dropWhile isDecimalDigit, ?_, ?_,
        fun c hc => List.mem_takeWhile_imp hc⟩ <;> rw [pointed, if_neg hne]
      rw [List.cons_append, List.takeWhile_append_dropWhile]

/-- What is read is a bound, and stands there. -/
theorem isBound_of_bound? {s b t : List Char} (h : bound? s = some (b, t)) :
    IsBound b ∧ s = b ++ t := by
  obtain ⟨negative, digits, hsplit, hs⟩ := exists_splitMinus s
  obtain ⟨fraction, rest, hfraction, hrest, hdigits⟩ :=
    exists_boundFraction (digits.dropWhile isDecimalDigit)
  rw [bound?_eq, hsplit, boundDigits?, Option.ite_none_left_eq_some] at h
  obtain ⟨hne, heq⟩ := h
  rw [hfraction] at heq
  obtain ⟨rfl, rfl⟩ := Prod.mk.inj (Option.some.inj heq)
  refine ⟨?_, ?_⟩
  · rw [List.append_assoc]
    exact .mk negative hne (fun c hc => List.mem_takeWhile_imp hc) hdigits
  · rw [hs, List.append_assoc, List.append_assoc, ← hrest, List.takeWhile_append_dropWhile]

/-- Digits with a fraction are read at least as far as they stand there. -/
theorem length_le_boundFraction {whole fraction : List Char}
    (hwhole : ∀ c ∈ whole, isDecimalDigit c) (hfraction : ∀ c ∈ fraction, isDecimalDigit c)
    {s : List Char} (h : whole ++ pointed fraction <+: s) :
    (whole ++ pointed fraction).length ≤ (s.takeWhile isDecimalDigit).length +
      (boundFraction (s.dropWhile isDecimalDigit)).1.length := by
  have hlen := Number.length_takeWhile_of_isPrefix hwhole ((List.prefix_append _ _).trans h)
  by_cases hf : fraction = []
  · simp only [hf, pointed, if_true, List.append_nil]
    omega
  · obtain ⟨u, rfl⟩ := h
    -- the point ends the digits, and the fraction is read as far as it goes
    have hpoint : whole ++ pointed fraction ++ u = whole ++ '.' :: (fraction ++ u) := by
      simp [pointed, hf]
    have hhalt : Halts isDecimalDigit ('.' :: (fraction ++ u)) := halts_cons.mpr (by decide)
    have hread := Number.length_takeWhile_of_isPrefix hfraction (List.prefix_append fraction u)
    have hne : (fraction ++ u).takeWhile isDecimalDigit ≠ [] := by
      intro hnil
      rw [hnil, List.length_nil, Nat.le_zero, List.length_eq_zero_iff] at hread
      exact hf hread
    rw [hpoint, takeWhile_append_of_halts hwhole hhalt, dropWhile_append_of_halts hwhole hhalt,
      boundFraction, if_neg hne, pointed, if_neg hf]
    simp only [List.length_append, List.length_cons]
    omega

/-- A bound that stands there has no more characters than the one that is read. -/
theorem IsBound.length_le {b b' t u : List Char} (hb' : IsBound b')
    (h : bound? (b' ++ u) = some (b, t)) : b'.length ≤ b.length := by
  obtain @⟨negative, whole, fraction, hne, hwhole, hfraction⟩ := hb'
  have hminus := halts_minus_of_digits hne hwhole (pointed fraction ++ u)
  have hlen := length_le_boundFraction hwhole hfraction (List.prefix_append _ u)
  rw [← List.append_assoc] at hminus
  rw [List.append_assoc, bound?_eq, splitMinus_signChars _ hminus, boundDigits?,
    Option.ite_none_left_eq_some] at h
  obtain ⟨rfl, -⟩ := Prod.mk.inj (Option.some.inj h.2)
  simp only [List.length_append] at hlen ⊢
  omega

/-- The bound that is read is the longest. -/
theorem longestPrefix_of_bound? {s b t : List Char} (h : bound? s = some (b, t)) :
    LongestPrefix IsBound s b := by
  obtain ⟨hb, rfl⟩ := isBound_of_bound? h
  refine ⟨hb, List.prefix_append b t, fun b' hb' ⟨u, hu⟩ => ?_⟩
  rw [← hu] at h
  exact hb'.length_le h

/-- The text goes on with a digit or with a hyphen and a digit. -/
def StartsBound (s : List Char) : Prop :=
  ∃ c t, isDecimalDigit c ∧ (s = c :: t ∨ s = '-' :: c :: t)

/-- Where a bound starts, one is read. -/
theorem StartsBound.exists_bound? {s : List Char} (h : StartsBound s) :
    ∃ b t, bound? s = some (b, t) := by
  obtain ⟨c, t, hc, hs⟩ := h
  have hne : (c :: t).takeWhile isDecimalDigit ≠ [] := by simp [hc]
  have hminus : Halts (· == '-') (c :: t) :=
    halts_minus_of_digits (List.cons_ne_nil c []) (List.forall_mem_singleton.mpr hc) t
  obtain ⟨negative, rfl⟩ : ∃ negative, s = signChars negative ++ c :: t := by
    rcases hs with rfl | rfl
    · exact ⟨false, rfl⟩
    · exact ⟨true, rfl⟩
  rw [bound?_eq, splitMinus_signChars negative hminus, boundDigits?, if_neg hne]
  exact ⟨_, _, rfl⟩

theorem IsBound.startsBound_append {b : List Char} (h : IsBound b) (t : List Char) :
    StartsBound (b ++ t) := by
  obtain @⟨negative, whole, fraction, hne, hwhole, hfraction⟩ := h
  obtain ⟨c, u, rfl⟩ := List.exists_cons_of_ne_nil hne
  refine ⟨c, u ++ pointed fraction ++ t, hwhole c List.mem_cons_self, ?_⟩
  cases negative
  · exact .inl (by simp [signChars])
  · exact .inr (by simp [signChars])

end LineChart
