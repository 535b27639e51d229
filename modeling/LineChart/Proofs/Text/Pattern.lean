import Mathlib.Data.List.Basic
import LineChart.Proofs.Text.Span
import LineChart.Text.Pattern

namespace LineChart.Text

variable {β : Type}

/-! ## The first way that succeeds -/

/-- What `k` makes of the first way with which it succeeds. -/
def Pattern.first (a : Pattern) (s : List Char) (k : Match → Option β) : Option β :=
  (a.ways s).findSome? k

/-- No way that stops before a character of class `p` succeeds, or every way does. -/
def Settles (p : Char → Bool) (k : Match → Option β) : Prop :=
  (∀ m, ¬Halts p m.rest → k m = none) ∨ ∀ m, (k m).isSome

theorem Settles.mono {p q : Char → Bool} {k : Match → Option β} (h : Settles q k)
    (hpq : ∀ c, p c → q c) : Settles p k :=
  h.imp_left fun hk m hm => hk m fun hq => hm (hq.mono hpq)

/-- What stops before a character of class `p` need not be tried after another way. -/
theorem Settles.or_eq {p : Char → Bool} {k : Match → Option β} (h : Settles p k) (m : Match)
    {n : Match} (hn : ¬Halts p n.rest) : (k m).or (k n) = k m := by
  rcases h with h | h
  · rw [h n hn, Option.or_none]
  · obtain ⟨b, hb⟩ := Option.isSome_iff_exists.mp (h m)
    rw [hb, Option.some_or]

namespace Pattern

theorem first_seq (a b : Pattern) (s : List Char) (k : Match → Option β) :
    (a ++ b).first s k = a.first s fun m => b.first m.rest fun n => k (m.append n) := by
  change ((a.ways s).flatMap fun m => (b.ways m.rest).map m.append).findSome? k = _
  rw [← List.head?_filterMap, List.filterMap_flatMap, List.head?_flatMap]
  simp only [first, List.head?_filterMap, List.findSome?_map]
  rfl

theorem first_group (a : Pattern) (s : List Char) (k : Match → Option β) :
    (group a).first s k = a.first s fun m => k { m with groups := m.taken :: m.groups } := by
  simp only [first, ways, List.findSome?_map]
  rfl

theorem first_optional (a : Pattern) (s : List Char) (k : Match → Option β) :
    (optional a).first s k = (a.first s k).or (k ⟨[], [], s⟩) := by
  simp only [first, ways, List.findSome?_append, List.findSome?_singleton]

theorem first_one_of_pos {p : Char → Bool} {c : Char} (h : p c) (s : List Char)
    (k : Match → Option β) : (one p).first (c :: s) k = k ⟨[c], [], s⟩ := by
  simp [first, ways, h]

theorem first_one_of_halts {p : Char → Bool} {s : List Char} (h : Halts p s)
    (k : Match → Option β) : (one p).first s k = none := by
  cases s with
  | nil => rfl
  | cons c s => simp [first, ways, halts_cons.mp h]

theorem first_char (c : Char) (s : List Char) (k : Match → Option β) :
    (char c).first (c :: s) k = k ⟨[c], [], s⟩ := first_one_of_pos (beq_self_eq_true c) s k

theorem first_char_eq (c : Char) (s : List Char) (k : Match → Option β) :
    (char c).first s k = ([c].isPrefixOf? s).bind fun t => k ⟨[c], [], t⟩ := by
  cases s with
  | nil => rfl
  | cons d s =>
    by_cases h : c = d
    · simp [h, first_char, List.isPrefixOf?]
    · simp [first, ways, char, Ne.symm h, h, List.isPrefixOf?]

theorem first_char_of_halts {c : Char} {s : List Char} (h : Halts (· == c) s)
    (k : Match → Option β) : (char c).first s k = none := first_one_of_halts h k

/-- The longest run comes first, and any other stops before a character of its class. -/
theorem exists_runs_eq (p : Char → Bool) (s : List Char) :
    ∃ ms, runs p s = ⟨s.takeWhile p, [], s.dropWhile p⟩ :: ms ∧ ∀ m ∈ ms, ¬Halts p m.rest := by
  induction s with
  | nil => exact ⟨[], rfl, fun m hm => absurd hm List.not_mem_nil⟩
  | cons c s ih =>
    obtain ⟨ms, hms, hrest⟩ := ih
    by_cases hc : p c
    · refine ⟨_, by rw [runs, if_pos hc, hms, List.takeWhile_cons_of_pos hc,
        List.dropWhile_cons_of_pos hc]; rfl, ?_⟩
      intro m hm
      rcases List.mem_append.mp hm with hm | hm
      · obtain ⟨n, hn, rfl⟩ := List.mem_map.mp hm
        exact hrest n hn
      · rw [List.mem_singleton.mp hm, halts_cons]
        simp [hc]
    · refine ⟨[], ?_, fun m hm => absurd hm List.not_mem_nil⟩
      rw [runs, if_neg hc, List.takeWhile_cons_of_neg hc, List.dropWhile_cons_of_neg hc]
      rfl

/-- Taking fewer characters than there are never helps what cannot go on with one of them. -/
theorem first_many {p : Char → Bool} {k : Match → Option β} (h : Settles p k) (s : List Char) :
    (many p).first s k = k ⟨s.takeWhile p, [], s.dropWhile p⟩ := by
  obtain ⟨ms, hms, hrest⟩ := exists_runs_eq p s
  rw [first, ways, hms, List.findSome?_cons]
  cases hk : k ⟨s.takeWhile p, [], s.dropWhile p⟩ with
  | some b => rfl
  | none =>
    rcases h with h | h
    · exact List.findSome?_eq_none_iff.mpr fun m hm => h m (hrest m hm)
    · exact absurd (h ⟨s.takeWhile p, [], s.dropWhile p⟩) (by simp [hk])

theorem head?_ways (a : Pattern) (s : List Char) :
    (a.ways s).head?.map Match.groups = a.first s fun m => some m.groups := by
  rw [first, ← List.head?_filterMap, List.filterMap_eq_map', List.head?_map]

/-- The leftmost place at which the pattern matches. -/
theorem captures?_cons (a : Pattern) (c : Char) (s : List Char) :
    a.captures? (c :: s) =
      (a.first (c :: s) fun m => some m.groups).or (a.captures? s) := by
  rw [captures?, head?_ways]

/-! ## Enclosed texts -/

theorem first_few_cons {p : Char → Bool} {c : Char} (hc : p c) (s : List Char)
    (k : Match → Option β) : (few p).first (c :: s) k =
      (k ⟨[], [], c :: s⟩).or
        ((few p).first s fun m => k ⟨c :: m.taken, m.groups, m.rest⟩) := by
  simp only [first, ways, runs, if_pos hc, List.reverse_append, List.findSome?_append,
    List.reverse_singleton, List.findSome?_singleton, ← List.map_reverse, List.findSome?_map]
  rfl

/-- The fewest characters before a closing one are those up to the first of its kind. -/
theorem first_few {p : Char → Bool} (closing : Char) {s : List Char} (hs : ∀ c ∈ s, p c)
    (f : Match → Match → β) :
    ((few p).first s fun m => (char closing).first m.rest fun n => some (f m n)) =
      if closing ∈ s then
        some (f ⟨s.takeWhile (· != closing), [], s.dropWhile (· != closing)⟩
          ⟨[closing], [], (s.dropWhile (· != closing)).tail⟩)
      else none := by
  induction s generalizing f with
  | nil => rfl
  | cons c s ih =>
    rw [List.forall_mem_cons] at hs
    rw [first_few_cons hs.1]
    by_cases hc : c = closing
    · subst hc
      rw [first_char]
      simp
    · rw [first_char_of_halts (halts_cons.mpr (by simpa using hc)), Option.none_or,
        ih hs.2 fun m => f ⟨c :: m.taken, m.groups, m.rest⟩]
      simp [Ne.symm hc, hc]

theorem first_enclosed {opening closing c : Char} {s : List Char} (hs : '\n' ∉ s) :
    ((enclosed opening closing).first (c :: s) fun m => some m.groups) =
      if c = opening ∧ closing ∈ s then some [s.takeWhile (· != closing)] else none := by
  have hline : ∀ d ∈ s, d != '\n' := fun d hd => by simpa using ne_of_mem_of_not_mem hd hs
  rw [enclosed, first_seq, first_seq]
  by_cases hc : c = opening
  · subst hc
    rw [first_char, first_group]
    simp only [true_and]
    exact first_few closing hline fun m n => m.taken :: m.groups ++ n.groups
  · rw [first_char_of_halts (halts_cons.mpr (by simpa using hc)), if_neg fun h => hc h.1]

/-- Within a line the pattern of an enclosed text finds the first group. -/
theorem captures?_enclosed (opening closing : Char) {s : List Char} (hs : '\n' ∉ s) :
    (enclosed opening closing).captures? s =
      (between? opening closing s).map fun body => [body] := by
  induction s with
  | nil => rfl
  | cons c s ih =>
    have htail := List.not_mem_of_not_mem_cons hs
    rw [captures?_cons, first_enclosed htail, ih htail]
    by_cases hc : c = opening
    · subst hc
      rw [between?_cons_of_eq]
      by_cases hm : closing ∈ s
      · simp [hm]
      · simp [hm, between?_of_not_mem c hm]
    · simp [hc, between?_cons_of_ne hc]

end Pattern

end LineChart.Text
