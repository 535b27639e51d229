import Mathlib.Data.List.TakeWhile
import LineChart.Text.Blank
import LineChart.Text.Group
import LineChart.Text.Minus

namespace LineChart

/-- The text does not go on with a character of class `p`. -/
def Halts (p : Char → Bool) (t : List Char) : Prop := ∀ c ∈ t.head?, p c = false

@[simp] theorem halts_nil (p : Char → Bool) : Halts p [] := by simp [Halts]

@[simp] theorem halts_cons {p : Char → Bool} {c : Char} {t : List Char} :
    Halts p (c :: t) ↔ p c = false := by simp [Halts]

instance (p : Char → Bool) : (t : List Char) → Decidable (Halts p t)
  | [] => .isTrue (halts_nil p)
  | c :: _ => decidable_of_iff (p c = false) halts_cons.symm

theorem Halts.append {p : Char → Bool} {s t : List Char} (hs : Halts p s) (ht : Halts p t) :
    Halts p (s ++ t) := by
  cases s with
  | nil => exact ht
  | cons c s => simpa using hs

theorem Halts.append_right {p : Char → Bool} {s : List Char} (hs : Halts p s) (hne : s ≠ [])
    (t : List Char) : Halts p (s ++ t) := by
  obtain ⟨c, u, rfl⟩ := List.exists_cons_of_ne_nil hne
  exact halts_cons.mpr (halts_cons.mp hs)

theorem Halts.mono {p q : Char → Bool} {t : List Char} (hq : Halts q t)
    (h : ∀ c, p c → q c) : Halts p t := by
  intro c hc
  have := hq c hc
  cases hp : p c
  · rfl
  · rw [h c hp] at this
    exact this

theorem Halts.of_isPrefix {p : Char → Bool} {s t : List Char} (ht : Halts p t) (h : s <+: t) :
    Halts p s := by
  obtain ⟨u, rfl⟩ := h
  cases s with
  | nil => exact halts_nil p
  | cons c s => exact halts_cons.mpr (halts_cons.mp ht)

theorem exists_cons_of_not_halts {p : Char → Bool} {s : List Char} (h : ¬Halts p s) :
    ∃ c t, s = c :: t ∧ p c := by
  cases s with
  | nil => exact absurd (halts_nil p) h
  | cons c t => exact ⟨c, t, rfl, by simpa using h⟩

theorem takeWhile_append_of_halts {p : Char → Bool} {s t : List Char} (hs : ∀ c ∈ s, p c)
    (ht : Halts p t) : (s ++ t).takeWhile p = s := by
  rw [List.takeWhile_append_of_pos hs]
  cases t with
  | nil => simp
  | cons c t => simp [halts_cons.mp ht]

theorem dropWhile_append_of_halts {p : Char → Bool} {s t : List Char} (hs : ∀ c ∈ s, p c)
    (ht : Halts p t) : (s ++ t).dropWhile p = t := by
  rw [List.dropWhile_append_of_pos hs]
  cases t with
  | nil => simp
  | cons c t => simp [halts_cons.mp ht]

/-- A text is divided in one way only where a class of characters ends. -/
theorem append_inj_of_halts {p : Char → Bool} {s s' t t' : List Char} (hs : ∀ c ∈ s, p c)
    (hs' : ∀ c ∈ s', p c) (ht : Halts p t) (ht' : Halts p t') (h : s ++ t = s' ++ t') :
    s = s' ∧ t = t' := by
  constructor
  · rw [← takeWhile_append_of_halts hs ht, h, takeWhile_append_of_halts hs' ht']
  · rw [← dropWhile_append_of_halts hs ht, h, dropWhile_append_of_halts hs' ht']

theorem dropWhile_of_halts {p : Char → Bool} {t : List Char} (ht : Halts p t) :
    t.dropWhile p = t := dropWhile_append_of_halts (s := []) (by simp) ht

theorem halts_dropWhile (p : Char → Bool) (s : List Char) : Halts p (s.dropWhile p) := by
  intro c hc
  have hnot := List.head?_dropWhile_not p s
  rw [Option.mem_def.mp hc] at hnot
  exact hnot

theorem takeWhile_of_halts {p : Char → Bool} {t : List Char} (ht : Halts p t) :
    t.takeWhile p = [] := takeWhile_append_of_halts (s := []) (by simp) ht

namespace Text

/-- Characters that no range of code points holds together are of different classes. -/
theorem inRanges_eq_false_of_disjoint {ranges ranges' : List (Nat × Nat)}
    (h : ∀ r ∈ ranges, ∀ r' ∈ ranges', r.2 < r'.1 ∨ r'.2 < r.1) {c : Char}
    (hc : inRanges ranges c) : inRanges ranges' c = false := by
  obtain ⟨r, hr, hin⟩ := List.any_eq_true.mp hc
  refine List.any_eq_false.mpr fun r' hr' hin' => ?_
  have hapart := h r hr r' hr'
  simp only [Bool.and_eq_true, decide_eq_true_eq] at hin hin'
  omega

/-- The visible characters of ASCII are no blanks, and no byte order mark. -/
theorem isPadding_eq_false_of_visible {c : Char} (hlo : 0x21 ≤ c.toNat) (hhi : c.toNat ≤ 0x7E) :
    isPadding c = false := by
  have hmark : c ≠ '\uFEFF' := by
    rintro rfl
    exact absurd hhi (by decide)
  simp [isPadding, isBlank, inRanges, blankRanges, hmark]
  omega

theorem isBlank_eq_false_of_isPadding {c : Char} (h : isPadding c = false) : isBlank c = false :=
  (Bool.or_eq_false_iff.mp h).1

/-- Nothing is trimmed from a text whose first and last characters stay. -/
theorem trimWhile_of_halts {p : Char → Bool} {s : List Char} (hs : Halts p s)
    (hr : Halts p s.reverse) : trimWhile p s = s := by
  rw [trimWhile, dropWhile_of_halts hs, dropWhile_of_halts hr, List.reverse_reverse]

theorem halts_trimWhile (p : Char → Bool) (s : List Char) :
    Halts p (trimWhile p s) ∧ Halts p (trimWhile p s).reverse := by
  constructor
  · -- what is left of a text from behind is a start of it
    have hprefix : trimWhile p s <+: s.dropWhile p := by
      apply List.reverse_suffix.mp
      rw [trimWhile, List.reverse_reverse]
      exact List.dropWhile_suffix p
    exact (halts_dropWhile p s).of_isPrefix hprefix
  · rw [trimWhile, List.reverse_reverse]
    exact halts_dropWhile p _

/-- Behind a text that stays, only what follows is trimmed. -/
theorem exists_trimWhile_append {p : Char → Bool} {s : List Char} (hne : s ≠ []) (hs : Halts p s)
    (hr : Halts p s.reverse) (t : List Char) :
    ∃ t', t' <+: t ∧ trimWhile p (s ++ t) = s ++ t' := by
  refine ⟨(t.reverse.dropWhile p).reverse, ?_, ?_⟩
  · simpa using List.reverse_prefix.mpr (List.dropWhile_suffix p (l := t.reverse))
  · rw [trimWhile, dropWhile_of_halts (hs.append_right hne t), List.reverse_append,
      List.dropWhile_append, dropWhile_of_halts hr]
    split
    · next hnil => simp [List.isEmpty_iff.mp hnil]
    · simp

theorem trimWhile_append_left {p : Char → Bool} {pad : List Char} (h : ∀ c ∈ pad, p c)
    (s : List Char) : trimWhile p (pad ++ s) = trimWhile p s := by
  rw [trimWhile, List.dropWhile_append_of_pos h]
  rfl

theorem trimWhile_append_right {p : Char → Bool} {pad : List Char} (h : ∀ c ∈ pad, p c)
    (s : List Char) : trimWhile p (s ++ pad) = trimWhile p s := by
  have hreverse : ∀ c ∈ pad.reverse, p c := fun c hc => h c (List.mem_reverse.mp hc)
  have hpad : pad.dropWhile p = [] := List.dropWhile_eq_nil_iff.mpr h
  rw [trimWhile, trimWhile, List.dropWhile_append]
  split
  · next hs => rw [hpad, List.isEmpty_iff.mp hs]
  · rw [List.reverse_append, List.dropWhile_append_of_pos hreverse]

/-- What is left of a text without the characters of class `p` around it. -/
def IsCore (p : Char → Bool) (s core : List Char) : Prop :=
  ∃ before after, s = before ++ core ++ after ∧ (∀ c ∈ before, p c) ∧ (∀ c ∈ after, p c) ∧
    Halts p core ∧ Halts p core.reverse

theorem isCore_trimWhile (p : Char → Bool) (s : List Char) : IsCore p s (trimWhile p s) := by
  obtain ⟨hstart, hstop⟩ := halts_trimWhile p s
  refine ⟨s.takeWhile p, ((s.dropWhile p).reverse.takeWhile p).reverse, ?_,
    fun c hc => List.mem_takeWhile_imp hc,
    fun c hc => List.mem_takeWhile_imp (List.mem_reverse.mp hc), hstart, hstop⟩
  have hrest : trimWhile p s ++ ((s.dropWhile p).reverse.takeWhile p).reverse = s.dropWhile p := by
    rw [trimWhile, ← List.reverse_append, List.takeWhile_append_dropWhile, List.reverse_reverse]
  rw [List.append_assoc, hrest, List.takeWhile_append_dropWhile]

/-- The core is determined by the text. -/
theorem isCore_iff {p : Char → Bool} {s core : List Char} :
    IsCore p s core ↔ trimWhile p s = core := by
  constructor
  · rintro ⟨before, after, rfl, hbefore, hafter, hstart, hstop⟩
    rw [trimWhile_append_right hafter, trimWhile_append_left hbefore,
      trimWhile_of_halts hstart hstop]
  · rintro rfl
    exact isCore_trimWhile p s

theorem trim_blank_cons (s : List Char) : trim (' ' :: s) = trim s := rfl

theorem hyphenated_of_not_mem {s : List Char} (h : '\u2212' ∉ s) : hyphenated s = s :=
  (List.map_congr_left fun _ hc => if_neg (ne_of_mem_of_not_mem hc h)).trans (List.map_id s)

/-! ## Groups -/

section Group

variable {opening closing : Char}

theorem between?_cons_of_eq (opening closing : Char) (s : List Char) :
    between? opening closing (opening :: s) =
      if closing ∈ s then some (s.takeWhile (· != closing)) else none := by
  simp [between?]

theorem between?_cons_of_ne {c : Char} (h : c ≠ opening) (closing : Char) (s : List Char) :
    between? opening closing (c :: s) = between? opening closing s := by
  simp [between?, h]

theorem between?_of_not_mem (opening : Char) {s : List Char} (h : closing ∉ s) :
    between? opening closing s = none := by
  rw [between?]
  split
  · rfl
  · next c rest hrest =>
    have hmem : closing ∈ rest → closing ∈ s := fun hm =>
      (List.dropWhile_sublist _).mem (hrest ▸ List.mem_cons_of_mem c hm)
    exact if_neg (mt hmem h)

/-- Nothing in front of the opening character counts. -/
theorem between?_append_cons {before : List Char} (h : opening ∉ before) (closing : Char)
    (rest : List Char) : between? opening closing (before ++ opening :: rest) =
      if closing ∈ rest then some (rest.takeWhile (· != closing)) else none := by
  induction before with
  | nil => exact between?_cons_of_eq opening closing rest
  | cons c before ih =>
    rw [List.mem_cons, not_or] at h
    rw [List.cons_append, between?_cons_of_ne (Ne.symm h.1), ih h.2]

theorem between?_append {before body : List Char} (hb : opening ∉ before) (hc : closing ∉ body)
    (rest : List Char) :
    between? opening closing (before ++ opening :: (body ++ closing :: rest)) = some body := by
  have htake : (body ++ closing :: rest).takeWhile (· != closing) = body :=
    takeWhile_append_of_halts (fun c hm => by simpa using ne_of_mem_of_not_mem hm hc) (by simp)
  rw [between?_append_cons hb, if_pos (by simp), htake]

/-- There is a closing character after an opening one. -/
def HasGroup (opening closing : Char) (s : List Char) : Prop :=
  ∃ before body after, s = before ++ opening :: (body ++ closing :: after)

/-- The text stands between the first opening character and the first closing one after it. -/
def IsFirstGroup (opening closing : Char) (s body : List Char) : Prop :=
  ∃ before after, s = before ++ opening :: (body ++ closing :: after) ∧ opening ∉ before ∧
    closing ∉ body

theorem IsFirstGroup.hasGroup {s body : List Char} (h : IsFirstGroup opening closing s body) :
    HasGroup opening closing s := by
  obtain ⟨before, after, heq, -, -⟩ := h
  exact ⟨before, body, after, heq⟩

theorem between?_of_not_mem_opening {s : List Char} (h : opening ∉ s) (closing : Char) :
    between? opening closing s = none := by
  have hdrop : s.dropWhile (· != opening) = [] :=
    List.dropWhile_eq_nil_iff.mpr fun c hc => by simpa using ne_of_mem_of_not_mem hc h
  rw [between?, hdrop]

theorem between?_eq_some_iff {s body : List Char} :
    between? opening closing s = some body ↔ IsFirstGroup opening closing s body := by
  constructor
  · intro h
    by_cases hopen : opening ∈ s
    · obtain ⟨before, rest, rfl, hbefore⟩ := List.eq_append_cons_of_mem hopen
      by_cases hclose : closing ∈ rest
      · obtain ⟨body', after, rfl, hbody⟩ := List.eq_append_cons_of_mem hclose
        rw [between?_append hbefore hbody] at h
        obtain rfl := Option.some.inj h
        exact ⟨before, after, rfl, hbefore, hbody⟩
      · rw [between?_append_cons hbefore, if_neg hclose] at h
        contradiction
    · rw [between?_of_not_mem_opening hopen] at h
      contradiction
  · rintro ⟨before, after, rfl, hbefore, hbody⟩
    exact between?_append hbefore hbody after

theorem HasGroup.isSome_between? {s : List Char} (h : HasGroup opening closing s) :
    (between? opening closing s).isSome := by
  obtain ⟨before, body, after, rfl⟩ := h
  -- an earlier opening character only starts the group earlier
  induction before with
  | nil =>
    rw [List.nil_append, between?_cons_of_eq, if_pos (by simp)]
    rfl
  | cons c before ih =>
    rw [List.cons_append]
    by_cases hc : c = opening
    · rw [hc, between?_cons_of_eq, if_pos (by simp)]
      rfl
    · rwa [between?_cons_of_ne hc]

theorem between?_eq_none_iff {s : List Char} :
    between? opening closing s = none ↔ ¬HasGroup opening closing s := by
  constructor
  · intro h hgroup
    have hsome := hgroup.isSome_between?
    rw [h] at hsome
    contradiction
  · intro h
    rw [Option.eq_none_iff_forall_ne_some]
    intro body hbody
    exact h (between?_eq_some_iff.mp hbody).hasGroup

end Group

end Text

open Text

/-- There is no blank at either end. -/
def Trimmed (s : List Char) : Prop := Halts isBlank s ∧ Halts isBlank s.reverse

instance (s : List Char) : Decidable (Trimmed s) := inferInstanceAs (Decidable (_ ∧ _))

theorem Trimmed.trim_eq {s : List Char} (h : Trimmed s) : trim s = s := trimWhile_of_halts h.1 h.2

theorem trimmed_trim (s : List Char) : Trimmed (trim s) := halts_trimWhile isBlank s

end LineChart
