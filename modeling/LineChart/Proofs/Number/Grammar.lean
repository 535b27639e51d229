import Mathlib.Data.Rat.Defs
import Mathlib.Order.WithBot
import LineChart.Proofs.Number.Spelling

namespace LineChart.Number

/-! ## Longest prefixes -/

/-- Of the texts of class `P` that `s` starts with, `w` is the longest. -/
structure LongestPrefix {α : Type} (P : List α → Prop) (s w : List α) : Prop where
  mem : P w
  isPrefix : w <+: s
  longest : ∀ w', P w' → w' <+: s → w'.length ≤ w.length

theorem LongestPrefix.unique {α : Type} {P : List α → Prop} {s w w' : List α}
    (h : LongestPrefix P s w) (h' : LongestPrefix P s w') : w = w' := by
  have hlen := (h'.longest w h.mem h.isPrefix).antisymm (h.longest w' h'.mem h'.isPrefix)
  obtain ⟨t, rfl⟩ := h.isPrefix
  obtain ⟨t', ht'⟩ := h'.isPrefix
  exact (List.append_inj ht'.symm hlen).1

theorem longestPrefix_congr {α : Type} {P : List α → Prop} {s s' : List α}
    (h : ∀ w, P w → (w <+: s ↔ w <+: s')) (w : List α) :
    LongestPrefix P s w ↔ LongestPrefix P s' w := by
  constructor
  · rintro ⟨hw, hp, hlongest⟩
    exact ⟨hw, (h w hw).mp hp, fun w' hw' hp' => hlongest w' hw' ((h w' hw').mpr hp')⟩
  · rintro ⟨hw, hp, hlongest⟩
    exact ⟨hw, (h w hw).mpr hp, fun w' hw' hp' => hlongest w' hw' ((h w' hw').mp hp')⟩

/-! ## The grammar of numerals -/

/-- An optional sign. -/
inductive SignWritten : List Char → Bool → Prop
  | absent : SignWritten [] false
  | plus : SignWritten ['+'] false
  | minus : SignWritten ['-'] true

/-- `( . D* )?` -/
inductive FractionWritten : List Char → List Char → Prop
  | absent : FractionWritten [] []
  | present {fraction : List Char} (digits : ∀ c ∈ fraction, c.isDigit) :
      FractionWritten ('.' :: fraction) fraction

/-- `( [eE] [+-]? D+ )?` -/
inductive ExponentWritten : List Char → Int → Prop
  | absent : ExponentWritten [] 0
  | present {mark : Char} {sign digits : List Char} {negative : Bool}
      (hmark : mark = 'e' ∨ mark = 'E') (hsign : SignWritten sign negative) (hne : digits ≠ [])
      (hdigits : ∀ c ∈ digits, c.isDigit) :
      ExponentWritten (mark :: (sign ++ digits))
        (if negative then -(Nat.ofDigitChars 10 digits 0 : Int) else Nat.ofDigitChars 10 digits 0)

/-- `Infinity | D+ ( . D* )? E? | . D+ E?` -/
inductive Magnitude.Written : List Char → Magnitude → Prop
  | infinity : Written "Infinity".toList .infinity
  | wholeFirst {whole point fraction exponent : List Char} {e : Int} (hne : whole ≠ [])
      (hwhole : ∀ c ∈ whole, c.isDigit) (hfraction : FractionWritten point fraction)
      (hexponent : ExponentWritten exponent e) :
      Written (whole ++ (point ++ exponent)) (.decimal whole fraction e)
  | pointFirst {fraction exponent : List Char} {e : Int} (hne : fraction ≠ [])
      (hfraction : ∀ c ∈ fraction, c.isDigit) (hexponent : ExponentWritten exponent e) :
      Written ('.' :: (fraction ++ exponent)) (.decimal [] fraction e)

/-- The text spells the numeral, which is a sign and a magnitude. -/
inductive Numeral.Written : List Char → Numeral → Prop
  | intro {sign body : List Char} {n : Numeral} (hsign : SignWritten sign n.negative)
      (hbody : n.magnitude.Written body) : Written (sign ++ body) n

/-- The texts that spell a numeral. -/
def IsNumeral (w : List Char) : Prop := ∃ n, Numeral.Written w n

/-! ## Where a class of characters ends -/

theorem length_takeWhile_of_isPrefix {p : Char → Bool} {w s : List Char} (hw : ∀ c ∈ w, p c)
    (h : w <+: s) : w.length ≤ (s.takeWhile p).length := by
  obtain ⟨t, rfl⟩ := h
  rw [List.takeWhile_append_of_pos hw, List.length_append]
  exact Nat.le_add_right _ _

/-- A prefix that goes on after its digits has all of them, so that the rest decides its length. -/
theorem length_append_le {w u s : List Char} (hw : ∀ c ∈ w, c.isDigit) (hu : Halts Char.isDigit u)
    (h : w ++ u <+: s) {k : Nat} (hk : u <+: s.dropWhile Char.isDigit → u.length ≤ k) :
    (w ++ u).length ≤ (s.takeWhile Char.isDigit).length + k := by
  cases u with
  | nil =>
    rw [List.append_nil] at h ⊢
    exact (length_takeWhile_of_isPrefix hw h).trans (Nat.le_add_right _ _)
  | cons c u =>
    obtain ⟨t, rfl⟩ := h
    have ht := hu.append_right (by simp) t
    rw [List.append_assoc, dropWhile_append_of_halts hw ht] at hk
    rw [List.append_assoc, takeWhile_append_of_halts hw ht, List.length_append]
    exact Nat.add_le_add_left (hk (List.prefix_append _ _)) _

theorem ExponentWritten.halts_of {p : Char → Bool} {w : List Char} {e : Int}
    (h : ExponentWritten w e) (hlower : p 'e' = false) (hupper : p 'E' = false) : Halts p w := by
  cases h with
  | absent => exact halts_nil _
  | present hmark =>
    rw [halts_cons]
    rcases hmark with rfl | rfl
    · exact hlower
    · exact hupper

theorem ExponentWritten.halts {w : List Char} {e : Int} (h : ExponentWritten w e) :
    Halts Char.isDigit w := h.halts_of rfl rfl

theorem FractionWritten.halts_append {point fraction exponent : List Char} {e : Int}
    (h : FractionWritten point fraction) (he : ExponentWritten exponent e) :
    Halts Char.isDigit (point ++ exponent) := by
  cases h with
  | absent => exact he.halts
  | present => exact halts_cons.mpr rfl

/-! ## Signs -/

theorem signOf_of_written {sign t : List Char} {negative : Bool} (h : SignWritten sign negative)
    (ht : Halts isSign t) : signOf (sign ++ t) = (negative, t) := by
  cases h with
  | absent => exact signOf_of_halts ht
  | plus => rfl
  | minus => rfl

theorem sign_cases (s : List Char) :
    (∃ t, s = '-' :: t) ∨ (∃ t, s = '+' :: t) ∨ Halts isSign s := by
  by_cases hs : Halts isSign s
  · exact .inr (.inr hs)
  · obtain ⟨c, t, rfl, hc⟩ := exists_cons_of_not_halts hs
    rcases Bool.or_eq_true_iff.mp hc with hc | hc <;> obtain rfl := beq_iff_eq.mp hc
    · exact .inl ⟨t, rfl⟩
    · exact .inr (.inl ⟨t, rfl⟩)

/-- The sign that is taken off is the sign of whatever is written there. -/
theorem exists_sign (s : List Char) : ∃ sign, SignWritten sign (signOf s).1 ∧
    s = sign ++ (signOf s).2 ∧ ∀ sign' negative' w, SignWritten sign' negative' → w ≠ [] →
      Halts isSign w → sign' ++ w <+: s → sign' = sign ∧ w <+: (signOf s).2 := by
  obtain ⟨sign, hs, heq⟩ : ∃ sign, SignWritten sign (signOf s).1 ∧ s = sign ++ (signOf s).2 := by
    rcases sign_cases s with ⟨t, rfl⟩ | ⟨t, rfl⟩ | h
    · exact ⟨['-'], .minus, rfl⟩
    · exact ⟨['+'], .plus, rfl⟩
    · rw [signOf_of_halts h]
      exact ⟨[], .absent, rfl⟩
  refine ⟨sign, hs, heq, fun sign' negative' w hsign' hne hw ⟨t, ht⟩ => ?_⟩
  have hsplit : signOf s = (negative', w ++ t) := by
    rw [← ht, List.append_assoc]
    exact signOf_of_written hsign' (hw.append_right hne t)
  rw [hsplit] at heq ⊢
  rw [heq, List.append_assoc] at ht
  exact ⟨List.append_cancel_right ht, List.prefix_append _ _⟩

theorem halts_sign_of_isDigit {digits : List Char} (h : ∀ c ∈ digits, c.isDigit) :
    Halts isSign digits := fun c hc =>
  isSign_eq_false_of_isDigit (h c (List.mem_of_mem_head? hc))

/-! ## Exponents -/

/-- The digits of an exponent, after the mark and the sign. -/
theorem exponentOf_eq {c : Char} (hc : c = 'e' ∨ c = 'E') (s : List Char) :
    exponentOf (c :: s) =
      let digits := (signOf s).2.takeWhile Char.isDigit
      if (signOf s).1 then -(Nat.ofDigitChars 10 digits 0 : Int)
      else Nat.ofDigitChars 10 digits 0 := by
  rw [exponentOf, if_pos hc]

/-- The digits of an exponent stand behind the sign that is taken off. -/
theorem exponent_digits_found {mark mark' : Char} {sign digits s : List Char} {negative : Bool}
    (hsign : SignWritten sign negative) (hne : digits ≠ []) (hdigits : ∀ c ∈ digits, c.isDigit)
    (h : mark :: (sign ++ digits) <+: mark' :: s) :
    digits.length ≤ ((signOf s).2.takeWhile Char.isDigit).length ∧
      sign.length + (signOf s).2.length = s.length := by
  obtain ⟨sign', -, heq, hmax⟩ := exists_sign s
  obtain ⟨rfl, hp⟩ := hmax sign negative digits hsign hne (halts_sign_of_isDigit hdigits)
    (List.cons_prefix_cons.mp h).2
  refine ⟨length_takeWhile_of_isPrefix hdigits hp, ?_⟩
  conv_rhs => rw [heq]
  exact List.length_append.symm

theorem ExponentWritten.eq_nil_of_isPrefix {w s : List Char} {e : Int} (h : ExponentWritten w e)
    (hs : Halts (fun c => c == 'e' || c == 'E') s) (hp : w <+: s) : w = [] := by
  cases h with
  | absent => rfl
  | present hmark =>
    obtain ⟨t, rfl⟩ := hp
    rcases hmark with rfl | rfl <;> simp at hs

/-- The exponent that counts is the longest that is written there. -/
theorem exists_exponent (s : List Char) : ∃ w, ExponentWritten w (exponentOf s) ∧ w <+: s ∧
    ∀ w' e', ExponentWritten w' e' → w' <+: s → w'.length ≤ w.length := by
  by_cases hs : Halts (fun c => c == 'e' || c == 'E') s
  · refine ⟨[], exponentOf_of_halts hs ▸ .absent, List.nil_prefix, fun w' e' hw' hp => ?_⟩
    exact (congrArg List.length (hw'.eq_nil_of_isPrefix hs hp)).le
  obtain ⟨mark, rest, rfl, hmark⟩ := exists_cons_of_not_halts hs
  replace hmark : mark = 'e' ∨ mark = 'E' := by simpa using hmark
  obtain ⟨sign, hsign, heq, -⟩ := exists_sign rest
  rw [exponentOf_eq hmark]
  by_cases hne : (signOf rest).2.takeWhile Char.isDigit = []
  · -- the mark dangles
    refine ⟨[], by simpa [hne] using ExponentWritten.absent, List.nil_prefix, ?_⟩
    rintro w' e' (_ | ⟨-, hsign', hne', hdigits'⟩) hp
    · exact le_rfl
    · have hlen := (exponent_digits_found hsign' hne' hdigits' hp).1
      rw [hne] at hlen
      exact absurd (List.length_eq_zero_iff.mp (Nat.le_zero.mp hlen)) hne'
  · -- mark, sign and digits: another exponent has the same sign, and no more digits
    refine ⟨mark :: (sign ++ (signOf rest).2.takeWhile Char.isDigit),
      .present hmark hsign hne fun c hc => List.mem_takeWhile_imp hc, ?_, ?_⟩
    · rw [List.cons_prefix_cons]
      refine ⟨rfl, ?_⟩
      conv_rhs => rw [heq]
      exact (List.prefix_append_right_inj _).mpr (List.takeWhile_prefix _)
    · rintro w' e' (_ | ⟨-, hsign', hne', hdigits'⟩) hp
      · exact Nat.zero_le _
      · have hlen := exponent_digits_found hsign' hne' hdigits' hp
        have hrest := congrArg List.length heq
        simp only [List.length_append, List.length_cons] at hrest ⊢
        omega

/-! ## Fractions -/

/-- Where a point and an exponent are written, there are no more digits after the point and no more
text than the reader finds. -/
theorem exists_fraction (s : List Char) : ∃ point, FractionWritten point (fractionOf s).1 ∧
    s = point ++ (fractionOf s).2 ∧ ∀ point' fraction' exponent' e' k,
      FractionWritten point' fraction' → ExponentWritten exponent' e' → point' ++ exponent' <+: s →
      (exponent' <+: (fractionOf s).2 → exponent'.length ≤ k) →
      fraction'.length ≤ (fractionOf s).1.length ∧
      (point' ++ exponent').length ≤ point.length + k := by
  by_cases hs : Halts (· == '.') s
  · rw [fractionOf_of_halts hs]
    refine ⟨[], .absent, rfl, ?_⟩
    rintro point' fraction' exponent' e' k (_ | hdigits) he hp hk
    · simpa using hk hp
    · obtain ⟨t, rfl⟩ := hp
      simp at hs
  · obtain ⟨c, rest, rfl, hc⟩ := exists_cons_of_not_halts hs
    obtain rfl := beq_iff_eq.mp hc
    refine ⟨'.' :: rest.takeWhile Char.isDigit, .present fun c hc => List.mem_takeWhile_imp hc,
      by simp [fractionOf], ?_⟩
    rintro point' fraction' exponent' e' k (_ | hdigits) he hp hk
    · -- without its point a fraction leaves nothing to an exponent, which the point would start
      rw [List.nil_append] at hp ⊢
      simp [he.eq_nil_of_isPrefix (by simp) hp]
    · have hp' := (List.cons_prefix_cons.mp hp).2
      have hlen := length_append_le hdigits he.halts hp' hk
      refine ⟨length_takeWhile_of_isPrefix hdigits ((List.prefix_append _ _).trans hp'), ?_⟩
      simp only [List.cons_append, List.length_cons]
      omega

/-! ## Magnitudes -/

/-- A magnitude is the word or digits, on one side of the point at least. -/
theorem Magnitude.written_decimal_iff {w whole fraction : List Char} {e : Int} :
    Written w (.decimal whole fraction e) ↔ ∃ point exponent, w = whole ++ (point ++ exponent) ∧
      (∀ c ∈ whole, c.isDigit) ∧ FractionWritten point fraction ∧ ExponentWritten exponent e ∧
      ¬(whole = [] ∧ fraction = []) := by
  constructor
  · intro h
    cases h with
    | wholeFirst hne hwhole hfraction hexponent =>
      exact ⟨_, _, rfl, hwhole, hfraction, hexponent, fun h => hne h.1⟩
    | pointFirst hne hfraction hexponent =>
      exact ⟨_, _, rfl, List.forall_mem_nil _, .present hfraction, hexponent, fun h => hne h.2⟩
  · rintro ⟨point, exponent, rfl, hwhole, hfraction, hexponent, hne⟩
    by_cases hw : whole = []
    · subst hw
      cases hfraction with
      | absent => exact absurd ⟨rfl, rfl⟩ hne
      | present hdigits => exact .pointFirst (fun h => hne ⟨rfl, h⟩) hdigits hexponent
    · exact .wholeFirst hw hwhole hfraction hexponent

theorem Magnitude.Written.eq_word {w : List Char} (h : Written w .infinity) :
    w = "Infinity".toList := by
  cases h
  rfl

/-- A written magnitude shows by its first character what it is. -/
theorem Magnitude.Written.exists_cons {w : List Char} {m : Magnitude} (h : m.Written w) :
    ∃ c t, w = c :: t ∧ isSign c = false ∧ (c = 'I' ↔ m = .infinity) := by
  cases h with
  | infinity => exact ⟨'I', "nfinity".toList, rfl, rfl, by simp⟩
  | pointFirst => exact ⟨'.', _, rfl, rfl, by simp⟩
  | @wholeFirst whole _ _ _ _ hne hwhole =>
    have hsign := halts_sign_of_isDigit hwhole
    obtain ⟨c, t, rfl⟩ := List.exists_cons_of_ne_nil hne
    refine ⟨c, _, rfl, halts_cons.mp hsign, ?_⟩
    have hc := hwhole c List.mem_cons_self
    simp only [reduceCtorEq, iff_false]
    rintro rfl
    exact absurd hc (by decide)

theorem dropWhile_of_isPrefix {p : Char → Bool} {w s : List Char} (hne : w ≠ [])
    (hw : Halts p w) (h : w <+: s) : s.dropWhile p = s := by
  obtain ⟨t, rfl⟩ := h
  exact dropWhile_of_halts (hw.append_right hne t)

/-- Digits that are written are found, before the point or after it. -/
theorem Magnitude.Written.digits_found {w s whole fraction : List Char} {e : Int}
    (h : Written w (.decimal whole fraction e)) (hp : w <+: s) :
    ¬(s.takeWhile Char.isDigit = [] ∧ (fractionOf (s.dropWhile Char.isDigit)).1 = []) := by
  rintro ⟨hnowhole, hnofraction⟩
  obtain ⟨point, exponent, rfl, hwhole, hfraction, hexponent, hne⟩ := written_decimal_iff.mp h
  have hw := length_takeWhile_of_isPrefix hwhole ((List.prefix_append _ _).trans hp)
  rw [hnowhole, List.length_nil, Nat.le_zero, List.length_eq_zero_iff] at hw
  subst hw
  rw [List.nil_append] at hp
  have hpoint : point ++ exponent ≠ [] := by
    rintro hnil
    rw [List.append_eq_nil_iff] at hnil
    rw [hnil.1] at hfraction
    cases hfraction
    exact hne ⟨rfl, rfl⟩
  rw [dropWhile_of_isPrefix hpoint (hfraction.halts_append hexponent) hp] at hnofraction
  obtain ⟨_, _, _, hmax⟩ := exists_fraction s
  have hlen := (hmax _ _ _ _ exponent.length hfraction hexponent hp fun _ => le_rfl).1
  rw [hnofraction, List.length_nil, Nat.le_zero, List.length_eq_zero_iff] at hlen
  exact hne ⟨rfl, hlen⟩

theorem Magnitude.scan?_of_word {s : List Char} (h : "Infinity".toList <+: s) :
    scan? s = some .infinity := by
  rw [scan?, if_pos (List.isPrefixOf_iff_prefix.mpr h)]

/-- Without the word, `scan?` finds digits or nothing. -/
theorem Magnitude.scan?_of_no_word {s : List Char} (h : ¬"Infinity".toList <+: s) :
    scan? s = if s.takeWhile Char.isDigit = [] ∧ (fractionOf (s.dropWhile Char.isDigit)).1 = []
      then none
      else some (.decimal (s.takeWhile Char.isDigit) (fractionOf (s.dropWhile Char.isDigit)).1
        (exponentOf (fractionOf (s.dropWhile Char.isDigit)).2)) := by
  rw [scan?, if_neg fun hp => h (List.isPrefixOf_iff_prefix.mp hp)]

theorem Magnitude.not_prefix_of_scan?_eq_none {s w : List Char} {m : Magnitude}
    (h : scan? s = none) (hw : m.Written w) : ¬w <+: s := by
  intro hp
  by_cases hword : "Infinity".toList <+: s
  · rw [scan?_of_word hword] at h
    exact absurd h (by simp)
  · rw [scan?_of_no_word hword] at h
    cases m with
    | infinity => exact hword (hw.eq_word ▸ hp)
    | decimal =>
      rw [if_neg (hw.digits_found hp)] at h
      exact absurd h (by simp)

/-- What is scanned is written there, and nothing longer is. -/
theorem Magnitude.exists_of_scan?_eq_some {s : List Char} {m : Magnitude} (h : scan? s = some m) :
    ∃ w, m.Written w ∧ w <+: s ∧ ∀ w' m', Written w' m' → w' <+: s → w'.length ≤ w.length := by
  by_cases hword : "Infinity".toList <+: s
  · rw [scan?_of_word hword, Option.some_inj] at h
    subst h
    refine ⟨_, .infinity, hword, fun w' m' hw' hp => ?_⟩
    -- the first character leaves no other choice
    obtain ⟨c, t, heq, -, hc⟩ := hw'.exists_cons
    have hI : c = 'I' := by
      obtain ⟨u, rfl⟩ := hword
      rw [heq] at hp
      exact (List.cons_prefix_cons.mp hp).1
    obtain rfl := hc.mp hI
    rw [hw'.eq_word]
  · rw [scan?_of_no_word hword] at h
    split at h
    · exact absurd h (by simp)
    next hne =>
    rw [Option.some_inj] at h
    subst h
    obtain ⟨point, hpoint, hs, hmax⟩ := exists_fraction (s.dropWhile Char.isDigit)
    obtain ⟨exponent, hexponent, hexp, hlongest⟩ :=
      exists_exponent (fractionOf (s.dropWhile Char.isDigit)).2
    refine ⟨s.takeWhile Char.isDigit ++ (point ++ exponent), written_decimal_iff.mpr ⟨point,
      exponent, rfl, fun c hc => List.mem_takeWhile_imp hc, hpoint, hexponent, hne⟩, ?_, ?_⟩
    · conv_rhs => rw [← List.takeWhile_append_dropWhile (p := Char.isDigit) (l := s), hs]
      rwa [List.prefix_append_right_inj, List.prefix_append_right_inj]
    · intro w' m' hw' hp
      cases m' with
      | infinity => exact absurd (hw'.eq_word ▸ hp) hword
      | decimal =>
        obtain ⟨point', exponent', rfl, hwhole', hfraction', hexponent', -⟩ :=
          written_decimal_iff.mp hw'
        calc (_ ++ (point' ++ exponent')).length
            ≤ (s.takeWhile Char.isDigit).length + (point.length + exponent.length) :=
              length_append_le hwhole' (hfraction'.halts_append hexponent') hp fun hrest =>
                (hmax _ _ _ _ _ hfraction' hexponent' hrest (hlongest _ _ hexponent')).2
          _ = _ := by simp only [List.length_append]

/-! ## Numerals -/

theorem Numeral.not_prefix_of_scan?_eq_none {s w : List Char} (h : scan? s = none)
    (hw : IsNumeral w) : ¬w <+: s := by
  rintro hp
  obtain ⟨n, hsign, hbody⟩ := hw
  obtain ⟨sign', -, -, hmax⟩ := exists_sign s
  rw [scan?_eq, Option.map_eq_none_iff] at h
  obtain ⟨c, t, rfl, hc, -⟩ := hbody.exists_cons
  exact Magnitude.not_prefix_of_scan?_eq_none h hbody
    (hmax _ _ _ hsign (by simp) (halts_cons.mpr hc) hp).2

/-- The numeral that is scanned is the longest that is written there. -/
theorem Numeral.exists_of_scan?_eq_some {s : List Char} {n : Numeral} (h : scan? s = some n) :
    ∃ w, n.Written w ∧ LongestPrefix IsNumeral s w := by
  rw [scan?_eq, Option.map_eq_some_iff] at h
  obtain ⟨m, hm, rfl⟩ := h
  obtain ⟨sign, hsign, heq, hmax⟩ := exists_sign s
  obtain ⟨body, hbody, hp, hlongest⟩ := Magnitude.exists_of_scan?_eq_some hm
  have hw : Numeral.Written (sign ++ body) ⟨(signOf s).1, m⟩ := .intro hsign hbody
  refine ⟨sign ++ body, hw, ⟨_, hw⟩, ?_, ?_⟩
  · conv_rhs => rw [heq]
    exact (List.prefix_append_right_inj _).mpr hp
  · rintro w' ⟨n', hsign', hbody'⟩ hp'
    obtain ⟨c, t, rfl, hc, -⟩ := hbody'.exists_cons
    obtain ⟨rfl, hrest⟩ := hmax _ _ _ hsign' (by simp) (halts_cons.mpr hc) hp'
    rw [List.length_append, List.length_append]
    exact Nat.add_le_add_left (hlongest _ _ hbody' hrest) _

/-! ## Numerals are ASCII -/

def IsAscii (w : List Char) : Prop := ∀ c ∈ w, c.toNat < 128

theorem isAscii_nil : IsAscii [] := List.forall_mem_nil _

theorem isAscii_cons {c : Char} {w : List Char} : IsAscii (c :: w) ↔ c.toNat < 128 ∧ IsAscii w :=
  List.forall_mem_cons

theorem isAscii_append {v w : List Char} : IsAscii (v ++ w) ↔ IsAscii v ∧ IsAscii w :=
  List.forall_mem_append

instance (w : List Char) : Decidable (IsAscii w) :=
  decidable_of_iff (w.all fun c => c.toNat < 128) (by simp [IsAscii])

theorem isAscii_of_isDigit {w : List Char} (h : ∀ c ∈ w, c.isDigit) : IsAscii w := fun c hc =>
  have hd : 48 ≤ c.toNat ∧ c.toNat ≤ 57 := Char.isDigit_iff_toNat.mp (h c hc)
  hd.2.trans_lt (by decide)

theorem SignWritten.isAscii {w : List Char} {negative : Bool} (h : SignWritten w negative) :
    IsAscii w := by
  cases h <;> decide

theorem FractionWritten.isAscii {w fraction : List Char} (h : FractionWritten w fraction) :
    IsAscii w := by
  cases h with
  | absent => exact isAscii_nil
  | present hdigits => exact isAscii_cons.mpr ⟨by decide, isAscii_of_isDigit hdigits⟩

theorem ExponentWritten.isAscii {w : List Char} {e : Int} (h : ExponentWritten w e) :
    IsAscii w := by
  cases h with
  | absent => exact isAscii_nil
  | present hmark hsign _ hdigits =>
    refine isAscii_cons.mpr ⟨?_, isAscii_append.mpr ⟨hsign.isAscii, isAscii_of_isDigit hdigits⟩⟩
    rcases hmark with rfl | rfl <;> decide

theorem Magnitude.Written.isAscii {w : List Char} {m : Magnitude} (h : m.Written w) :
    IsAscii w := by
  cases m with
  | infinity =>
    rw [h.eq_word]
    decide
  | decimal =>
    obtain ⟨point, exponent, rfl, hwhole, hfraction, hexponent, -⟩ := written_decimal_iff.mp h
    exact isAscii_append.mpr ⟨isAscii_of_isDigit hwhole,
      isAscii_append.mpr ⟨hfraction.isAscii, hexponent.isAscii⟩⟩

theorem IsNumeral.isAscii {w : List Char} (h : IsNumeral w) : IsAscii w := by
  obtain ⟨n, hsign, hbody⟩ := h
  exact isAscii_append.mpr ⟨hsign.isAscii, hbody.isAscii⟩

/-! ## One meaning for each text -/

theorem ExponentWritten.exponentOf_eq {w : List Char} {e : Int} (h : ExponentWritten w e) :
    exponentOf w = e := by
  cases h with
  | absent => rfl
  | @present mark sign digits negative hmark hsign hne hdigits =>
    have hall : digits.takeWhile Char.isDigit = digits := List.takeWhile_eq_self_iff.mpr hdigits
    rw [Number.exponentOf_eq hmark, signOf_of_written hsign (halts_sign_of_isDigit hdigits), hall]

theorem FractionWritten.fractionOf_append {point fraction exponent : List Char} {e : Int}
    (h : FractionWritten point fraction) (he : ExponentWritten exponent e) :
    fractionOf (point ++ exponent) = (fraction, exponent) := by
  cases h with
  | absent => exact fractionOf_of_halts (he.halts_of rfl rfl)
  | present hdigits =>
    rw [List.cons_append, fractionOf, takeWhile_append_of_halts hdigits he.halts,
      dropWhile_append_of_halts hdigits he.halts]

theorem Magnitude.Written.scan?_eq {w : List Char} {m : Magnitude} (h : m.Written w) :
    scan? w = some m := by
  cases m with
  | infinity => exact scan?_of_word (h.eq_word ▸ List.prefix_rfl)
  | decimal =>
    have hword : ¬"Infinity".toList <+: w := by
      rintro ⟨t, rfl⟩
      obtain ⟨c, u, heq, -, hc⟩ := h.exists_cons
      exact absurd (hc.mp (List.cons.inj heq).1.symm) (by simp)
    obtain ⟨point, exponent, rfl, hwhole, hfraction, hexponent, hne⟩ := written_decimal_iff.mp h
    have hhalts := hfraction.halts_append hexponent
    rw [scan?_of_no_word hword, takeWhile_append_of_halts hwhole hhalts,
      dropWhile_append_of_halts hwhole hhalts, hfraction.fractionOf_append hexponent, if_neg hne,
      hexponent.exponentOf_eq]

theorem Numeral.Written.scan?_eq {w : List Char} {n : Numeral} (h : n.Written w) :
    Numeral.scan? w = some n := by
  obtain ⟨hsign, hbody⟩ := h
  obtain ⟨c, t, rfl, hc, -⟩ := hbody.exists_cons
  rw [Numeral.scan?_eq, signOf_of_written hsign (halts_cons.mpr hc), hbody.scan?_eq]
  rfl

/-- The reader and the grammar agree on what the longest numeral is. -/
theorem Numeral.scan?_eq_some_iff {s : List Char} {n : Numeral} :
    scan? s = some n ↔ ∃ w, n.Written w ∧ LongestPrefix IsNumeral s w := by
  refine ⟨exists_of_scan?_eq_some, fun ⟨w, hw, hlongest⟩ => ?_⟩
  cases h : scan? s with
  | none => exact absurd hlongest.isPrefix (not_prefix_of_scan?_eq_none h ⟨n, hw⟩)
  | some n' =>
    obtain ⟨w', hw', hlongest'⟩ := exists_of_scan?_eq_some h
    rw [hlongest.unique hlongest'] at hw
    rw [← hw'.scan?_eq, hw.scan?_eq]

theorem Numeral.scan?_eq_none_iff {s : List Char} :
    scan? s = none ↔ ∀ w, IsNumeral w → ¬w <+: s := by
  refine ⟨fun h w => not_prefix_of_scan?_eq_none h, fun h => ?_⟩
  by_contra hne
  obtain ⟨n, hn⟩ := Option.ne_none_iff_exists'.mp hne
  obtain ⟨w, -, hlongest⟩ := exists_of_scan?_eq_some hn
  exact h w hlongest.mem hlongest.isPrefix

/-! ## Literals -/

/-- `( e -? D+ )?` -/
inductive CanonicalExponent : List Char → Int → Prop
  | absent : CanonicalExponent [] 0
  | present (negative : Bool) {digits : List Char} (hne : digits ≠ [])
      (hdigits : ∀ c ∈ digits, c.isDigit) :
      CanonicalExponent ('e' :: (signChars negative ++ digits))
        (if negative then -(Nat.ofDigitChars 10 digits 0 : Int) else Nat.ofDigitChars 10 digits 0)

/-- The literals `-? inf` and `-? D+ ( . D+ )? ( e -? D+ )?`. -/
inductive Numeral.Canonical : List Char → Numeral → Prop
  | infinity (negative : Bool) :
      Canonical (signChars negative ++ "inf".toList) ⟨negative, .infinity⟩
  | decimal (negative : Bool) {whole fraction exponent : List Char} {e : Int} (hne : whole ≠ [])
      (hwhole : ∀ c ∈ whole, c.isDigit) (hfraction : ∀ c ∈ fraction, c.isDigit)
      (hexponent : CanonicalExponent exponent e) :
      Canonical (signChars negative ++ (whole ++ (pointed fraction ++ exponent)))
        ⟨negative, .decimal whole fraction e⟩

theorem signWritten_signChars (negative : Bool) : SignWritten (signChars negative) negative := by
  cases negative
  · exact .absent
  · exact .minus

theorem fractionWritten_pointed {fraction : List Char} (h : ∀ c ∈ fraction, c.isDigit) :
    FractionWritten (pointed fraction) fraction := by
  by_cases hne : fraction = []
  · subst hne
    exact .absent
  · rw [pointed, if_neg hne]
    exact .present h

theorem CanonicalExponent.written {w : List Char} {e : Int} (h : CanonicalExponent w e) :
    ExponentWritten w e := by
  cases h with
  | absent => exact .absent
  | present negative hne hdigits =>
    exact .present (.inl rfl) (signWritten_signChars negative) hne hdigits

/-- A literal with digits is a numeral too. -/
theorem written_of_canonical_decimal {negative : Bool} {whole fraction exponent : List Char}
    {e : Int} (hne : whole ≠ []) (hwhole : ∀ c ∈ whole, c.isDigit)
    (hfraction : ∀ c ∈ fraction, c.isDigit) (hexponent : CanonicalExponent exponent e) :
    Numeral.Written (signChars negative ++ (whole ++ (pointed fraction ++ exponent)))
      ⟨negative, .decimal whole fraction e⟩ :=
  .intro (signWritten_signChars negative)
    (.wholeFirst hne hwhole (fractionWritten_pointed hfraction) hexponent.written)

/-! ## What numerals denote -/

/-- The exact value, `⊤` for infinity. -/
def Magnitude.value : Magnitude → WithTop ℚ
  | .infinity => ⊤
  | .decimal whole fraction exponent =>
    ((Nat.ofDigitChars 10 (whole ++ fraction) 0 * 10 ^ (exponent - fraction.length) : ℚ) :
      WithTop ℚ)

/-- The sign, which a zero has too, and the exact magnitude. -/
def Numeral.value (n : Numeral) : Bool × WithTop ℚ := (n.negative, n.magnitude.value)

end LineChart.Number
