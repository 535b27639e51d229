import LineChart.Number.Format
import LineChart.Number.Numeral
import LineChart.Proofs.Number.BitPattern
import LineChart.Proofs.Number.Shortest
import LineChart.Proofs.Text.Span

namespace LineChart.Number

/-! ## Scanning digits -/

/-- A fraction with its point, or nothing for none. -/
def pointed (fraction : List Char) : List Char := if fraction = [] then [] else '.' :: fraction

theorem fractionOf_of_halts {t : List Char} (hp : Halts (· == '.') t) : fractionOf t = ([], t) := by
  unfold fractionOf
  split
  · simp at hp
  · rfl

theorem fractionOf_pointed {fraction t : List Char} (hf : ∀ c ∈ fraction, c.isDigit)
    (ht : Halts Char.isDigit t) (hp : Halts (· == '.') t) :
    fractionOf (pointed fraction ++ t) = (fraction, t) := by
  by_cases h : fraction = []
  · subst h
    exact fractionOf_of_halts hp
  · simp only [pointed, if_neg h, List.cons_append, fractionOf, takeWhile_append_of_halts hf ht,
      dropWhile_append_of_halts hf ht]

/-- What `Numeral.scan?` does after the sign. -/
def Magnitude.scan? (s : List Char) : Option Magnitude :=
  if "Infinity".toList.isPrefixOf s then some .infinity
  else
    let whole := s.takeWhile Char.isDigit
    let (fraction, tail) := fractionOf (s.dropWhile Char.isDigit)
    if whole = [] ∧ fraction = [] then none else some (.decimal whole fraction (exponentOf tail))

theorem Numeral.scan?_eq (s : List Char) :
    Numeral.scan? s = (Magnitude.scan? (signOf s).2).map fun m => ⟨(signOf s).1, m⟩ := by
  simp only [Numeral.scan?, Magnitude.scan?]
  split
  · rfl
  · split <;> rfl

/-- Digits with a fraction are scanned whole; the rest is left to the exponent. -/
theorem Magnitude.scan?_decimal {whole fraction t : List Char} (hne : whole ≠ [])
    (hw : ∀ c ∈ whole, c.isDigit) (hf : ∀ c ∈ fraction, c.isDigit) (ht : Halts Char.isDigit t)
    (hp : Halts (· == '.') t) :
    Magnitude.scan? (whole ++ (pointed fraction ++ t)) =
      some (.decimal whole fraction (exponentOf t)) := by
  have hhalt : Halts Char.isDigit (pointed fraction ++ t) := by
    unfold pointed
    split
    · exact ht
    · exact halts_cons.mpr rfl
  have hinf : ¬"Infinity".toList.isPrefixOf (whole ++ (pointed fraction ++ t)) := by
    obtain ⟨c, whole', rfl⟩ := List.exists_cons_of_ne_nil hne
    have hc : 'I' ≠ c := by
      rintro rfl
      exact absurd (hw 'I' List.mem_cons_self) (by decide)
    simp [List.isPrefixOf, hc]
  rw [Magnitude.scan?, if_neg hinf]
  simp only [takeWhile_append_of_halts hw hhalt, dropWhile_append_of_halts hw hhalt,
    fractionOf_pointed hf ht hp, hne, false_and, if_false]

theorem exponentOf_of_halts {t : List Char} (ht : Halts (fun c => c == 'e' || c == 'E') t) :
    exponentOf t = 0 := by
  cases t with
  | nil => rfl
  | cons c t =>
    have hc : ¬(c = 'e' ∨ c = 'E') := by simpa using halts_cons.mp ht
    rw [exponentOf, if_neg hc]

theorem exponentOf_digits {t : List Char} (sign digits : List Char) (negative : Bool)
    (hs : signOf (sign ++ (digits ++ t)) = (negative, digits ++ t)) (hd : ∀ c ∈ digits, c.isDigit)
    (ht : Halts Char.isDigit t) :
    exponentOf ('e' :: (sign ++ (digits ++ t))) =
      if negative then -(Nat.ofDigitChars 10 digits 0 : Int) else Nat.ofDigitChars 10 digits 0 := by
  rw [exponentOf, if_pos (.inl rfl), hs]
  simp only [takeWhile_append_of_halts hd ht]

/-! ## Spelling decimals -/

theorem isDigit_of_mem_zeros {n : Nat} {c : Char} (h : c ∈ List.replicate n '0') : c.isDigit := by
  rw [(List.mem_replicate.mp h).2]
  rfl

/-- Digits with a fraction that stand for a decimal when an exponent follows them. -/
structure Spells (whole fraction : List Char) (exponent : Int) (d : Decimal) : Prop where
  ne_nil : whole ≠ []
  wholeDigits : ∀ c ∈ whole, c.isDigit
  fractionDigits : ∀ c ∈ fraction, c.isDigit
  rank : (Magnitude.decimal whole fraction exponent).rank = d.rank

theorem spells_pointFirst {d : Decimal} (hd : d.Normal) (h0 : d.point ≤ 0) :
    Spells ['0'] (List.replicate (-d.point).toNat '0' ++ d.digits) 0 d := by
  refine ⟨by simp, by simp, ?_, ?_⟩
  · intro c hc
    rcases List.mem_append.mp hc with hc | hc
    · exact isDigit_of_mem_zeros hc
    · exact hd.isDigit c hc
  · have hsig : Nat.ofDigitChars 10 (['0'] ++ (List.replicate (-d.point).toNat '0' ++ d.digits)) 0 =
        d.significand := by
      simp [Nat.ofDigitChars_append, Nat.ofDigitChars_cons, Decimal.significand]
    have hexp : (0 : Int) - (List.replicate (-d.point).toNat '0' ++ d.digits).length =
        d.point - d.digits.length := by
      rw [List.length_append, List.length_replicate]
      omega
    rw [Magnitude.rank, hsig, hexp, Decimal.rank]

theorem spells_pointWithin {d : Decimal} (hd : d.Normal) (h0 : 0 < d.point)
    (hlen : d.point < d.digits.length) :
    Spells (d.digits.take d.point.toNat) (d.digits.drop d.point.toNat) 0 d := by
  refine ⟨?_, ?_, ?_, ?_⟩
  · rw [ne_eq, List.take_eq_nil_iff]
    simp only [hd.ne_nil, or_false]
    omega
  · exact fun c hc => hd.isDigit c (List.mem_of_mem_take hc)
  · exact fun c hc => hd.isDigit c (List.mem_of_mem_drop hc)
  · have hexp : (0 : Int) - (d.digits.drop d.point.toNat).length = d.point - d.digits.length := by
      rw [List.length_drop]
      omega
    rw [Magnitude.rank, List.take_append_drop, hexp, Decimal.rank, Decimal.significand]

theorem spells_pointLast {d : Decimal} (hd : d.Normal) (hlen : d.digits.length ≤ d.point) :
    Spells (d.digits ++ List.replicate (d.point.toNat - d.digits.length) '0') [] 0 d := by
  refine ⟨by simp [hd.ne_nil], ?_, by simp, ?_⟩
  · intro c hc
    rcases List.mem_append.mp hc with hc | hc
    · exact hd.isDigit c hc
    · exact isDigit_of_mem_zeros hc
  · have hexp : (0 : Int) + (d.point.toNat - d.digits.length : Nat) =
        d.point - d.digits.length := by omega
    rw [Magnitude.rank, List.append_nil, Nat.ofDigitChars_append, Nat.ofDigitChars_replicate_zero,
      Nat.mul_comm, List.length_nil, Nat.cast_zero, sub_zero, rankOfDecimal_mul_pow, hexp,
      Decimal.rank, Decimal.significand]

/-- A positional number is digits with a fraction, and means what its digits and point mean. -/
theorem exists_positional_eq {d : Decimal} (hd : d.Normal) :
    ∃ whole fraction, Format.diagram.positional d = whole ++ pointed fraction ∧
      Spells whole fraction 0 d := by
  have hpos := hd.length_pos
  by_cases h0 : d.point ≤ 0
  · refine ⟨_, _, ?_, spells_pointFirst hd h0⟩
    have hne : List.replicate (-d.point).toNat '0' ++ d.digits ≠ [] := by simp [hd.ne_nil]
    rw [Format.positional, if_pos h0, pointed, if_neg hne]
    rfl
  by_cases hlen : d.point < d.digits.length
  · refine ⟨_, _, ?_, spells_pointWithin hd (by omega) hlen⟩
    have hne : d.digits.drop d.point.toNat ≠ [] := by
      rw [ne_eq, List.drop_eq_nil_iff]
      omega
    rw [Format.positional, if_neg h0, if_pos hlen, pointed, if_neg hne]
  · refine ⟨_, _, ?_, spells_pointLast hd (by omega)⟩
    rw [Format.positional, if_neg h0, if_neg hlen, pointed, if_pos rfl]
    rfl

/-- A scientific number is one digit with a fraction, and an exponent. -/
theorem exists_scientific_eq {d : Decimal} (hd : d.Normal) :
    ∃ whole fraction, Format.diagram.scientific d = whole ++ (pointed fraction ++
      'e' :: ((if d.point - 1 < 0 then ['-'] else ['+']) ++ Nat.toDigits 10 (d.point - 1).natAbs)) ∧
      Spells whole fraction (d.point - 1) d := by
  have hpos := hd.length_pos
  refine ⟨d.digits.take 1, d.digits.drop 1, ?_, ?_, ?_, ?_, ?_⟩
  · simp [Format.scientific, Format.diagram, pointed]
  · simp [hd.ne_nil]
  · exact fun c hc => hd.isDigit c (List.mem_of_mem_take hc)
  · exact fun c hc => hd.isDigit c (List.mem_of_mem_drop hc)
  · have hexp : d.point - 1 - (d.digits.drop 1).length = d.point - d.digits.length := by
      rw [List.length_drop]
      omega
    rw [Magnitude.rank, List.take_append_drop, hexp, Decimal.rank, Decimal.significand]

/-! ## Reading numbers back -/

/-- The characters that a numeral could go on with. -/
def isNumeralChar (c : Char) : Bool := c.isDigit || c == '.' || c == 'e' || c == 'E'

theorem halts_isDigit {t : List Char} (ht : Halts isNumeralChar t) : Halts Char.isDigit t :=
  ht.mono fun c hc => by simp [isNumeralChar, hc]

theorem halts_point {t : List Char} (ht : Halts isNumeralChar t) : Halts (· == '.') t :=
  ht.mono fun c hc => by simp [isNumeralChar, beq_iff_eq.mp hc]

theorem halts_mark {t : List Char} (ht : Halts isNumeralChar t) :
    Halts (fun c => c == 'e' || c == 'E') t :=
  ht.mono fun c hc => by
    rcases Bool.or_eq_true_iff.mp hc with h | h <;> simp [isNumeralChar, beq_iff_eq.mp h]

theorem scan?_positional {d : Decimal} (hd : d.Normal) {t : List Char}
    (ht : Halts isNumeralChar t) :
    ∃ m, Magnitude.scan? (Format.diagram.positional d ++ t) = some m ∧ m.rank = d.rank := by
  obtain ⟨whole, fraction, heq, hs⟩ := exists_positional_eq hd
  refine ⟨.decimal whole fraction 0, ?_, hs.rank⟩
  rw [heq, List.append_assoc, Magnitude.scan?_decimal hs.ne_nil hs.wholeDigits hs.fractionDigits
    (halts_isDigit ht) (halts_point ht), exponentOf_of_halts (halts_mark ht)]

theorem scan?_scientific {d : Decimal} (hd : d.Normal) {t : List Char}
    (ht : Halts isNumeralChar t) :
    ∃ m, Magnitude.scan? (Format.diagram.scientific d ++ t) = some m ∧ m.rank = d.rank := by
  obtain ⟨whole, fraction, heq, hs⟩ := exists_scientific_eq hd
  refine ⟨.decimal whole fraction (d.point - 1), ?_, hs.rank⟩
  have hexp : exponentOf ('e' :: ((if d.point - 1 < 0 then ['-'] else ['+']) ++
      (Nat.toDigits 10 (d.point - 1).natAbs ++ t))) = d.point - 1 := by
    have hdigits : ∀ c ∈ Nat.toDigits 10 (d.point - 1).natAbs, c.isDigit :=
      fun c hc => Nat.isDigit_of_mem_toDigits (by decide) (by decide) hc
    by_cases hneg : d.point - 1 < 0
    · rw [if_pos hneg, exponentOf_digits ['-'] (Nat.toDigits 10 _) true rfl hdigits
        (halts_isDigit ht), if_pos rfl, Nat.ofDigitChars_ten_toDigits]
      omega
    · rw [if_neg hneg, exponentOf_digits ['+'] (Nat.toDigits 10 _) false rfl hdigits
        (halts_isDigit ht), if_neg (by decide), Nat.ofDigitChars_ten_toDigits]
      omega
  rw [heq]
  simp only [List.append_assoc, List.cons_append]
  rw [Magnitude.scan?_decimal hs.ne_nil hs.wholeDigits hs.fractionDigits (by simp) (by simp), hexp]

/-- A spelled magnitude is scanned to its rank. -/
theorem scan?_magnitude {r : Nat} (hr : r < infinityRank) {t : List Char}
    (ht : Halts isNumeralChar t) :
    ∃ m, Magnitude.scan? (Format.diagram.magnitude r ++ t) = some m ∧ m.rank = r := by
  by_cases h0 : r = 0
  · refine ⟨.decimal ['0'] [] 0, ?_, by rw [h0]; rfl⟩
    rw [Format.magnitude, if_pos h0, ← exponentOf_of_halts (halts_mark ht)]
    exact Magnitude.scan?_decimal (List.cons_ne_nil '0' []) (by simp)
      (List.forall_mem_nil _) (halts_isDigit ht) (halts_point ht)
  · have hd := normal_shortest h0 hr
    have hpos := scan?_positional hd ht
    have hsci := scan?_scientific hd ht
    rw [rank_shortest hr] at hpos hsci
    simp only [Format.magnitude, if_neg h0]
    split
    · exact hpos
    · exact hsci

/-- The characters that numbers in a diagram are spelled with. -/
def isNumberChar (c : Char) : Bool :=
  c.isDigit || c ∈ ['.', '-', '+', 'e', 'N', 'a', 'I', 'n', 'f', 'i', 't', 'y']

theorem isNumberChar_of_isDigit {c : Char} (h : c.isDigit) : isNumberChar c := by
  simp [isNumberChar, h]

theorem isNumberChar_of_spells {whole fraction : List Char} {e : Int} {d : Decimal}
    (h : Spells whole fraction e d) : ∀ c ∈ whole ++ pointed fraction, isNumberChar c := by
  intro c hc
  rcases List.mem_append.mp hc with hc | hc
  · exact isNumberChar_of_isDigit (h.wholeDigits c hc)
  · unfold pointed at hc
    split at hc
    · simp at hc
    · rcases List.mem_cons.mp hc with rfl | hc
      · rfl
      · exact isNumberChar_of_isDigit (h.fractionDigits c hc)

theorem isNumberChar_of_mem_magnitude {r : Nat} (hr : r < infinityRank) :
    ∀ c ∈ Format.diagram.magnitude r, isNumberChar c := by
  unfold Format.magnitude
  split
  · simp [Format.diagram, isNumberChar]
  · next h0 =>
    have hd := normal_shortest h0 hr
    simp only
    split
    · obtain ⟨whole, fraction, heq, hs⟩ := exists_positional_eq hd
      exact heq ▸ isNumberChar_of_spells hs
    · obtain ⟨whole, fraction, heq, hs⟩ := exists_scientific_eq hd
      intro c hc
      rw [heq, ← List.append_assoc] at hc
      rcases List.mem_append.mp hc with hc | hc
      · exact isNumberChar_of_spells hs c hc
      · rcases List.mem_cons.mp hc with rfl | hc
        · rfl
        · rcases List.mem_append.mp hc with hc | hc
          · split at hc <;> simp at hc <;> subst hc <;> rfl
          · exact isNumberChar_of_isDigit (Nat.isDigit_of_mem_toDigits (by decide) (by decide) hc)

/-- Whether a minus stands in front. -/
def showsMinus (v : Float) : Bool := isNegative v && rank v != 0

def signChars (negative : Bool) : List Char := if negative then ['-'] else []

theorem chars_of_finite {v : Float} (hr : rank v < infinityRank) :
    Format.diagram.chars v = signChars (showsMinus v) ++ Format.diagram.magnitude (rank v) := by
  have hi : isInfinite v = false := by simpa [isInfinite] using hr.ne
  simp [Format.chars, isNaN_eq_false hr.le, hi, showsMinus, signChars, Format.diagram]

theorem chars_of_infinite {v : Float} (hr : rank v = infinityRank) :
    Format.diagram.chars v = signChars (showsMinus v) ++ "Infinity".toList := by
  have hi : isInfinite v := by simpa [isInfinite] using hr
  simp [Format.chars, isNaN_eq_false hr.le, hi, showsMinus, signChars, Format.diagram]

theorem chars_of_isNaN {v : Float} (h : isNaN v) : Format.diagram.chars v = "NaN".toList := by
  simp [Format.chars, h]

theorem rank_cases (v : Float) : isNaN v ∨ rank v = infinityRank ∨ rank v < infinityRank := by
  rw [isNaN, decide_eq_true_eq]
  omega

theorem isNumberChar_of_mem_signChars (negative : Bool) :
    ∀ c ∈ signChars negative, isNumberChar c := by
  cases negative <;> simp [signChars, isNumberChar]

theorem isNumberChar_of_mem_chars (v : Float) : ∀ c ∈ Format.diagram.chars v, isNumberChar c := by
  intro c hc
  rcases rank_cases v with hn | hi | hr
  · have hnan : "NaN".toList.all isNumberChar := by decide
    rw [chars_of_isNaN hn] at hc
    exact List.all_eq_true.mp hnan c hc
  · have hinf : "Infinity".toList.all isNumberChar := by decide
    rw [chars_of_infinite hi] at hc
    rcases List.mem_append.mp hc with hc | hc
    · exact isNumberChar_of_mem_signChars _ c hc
    · exact List.all_eq_true.mp hinf c hc
  · rw [chars_of_finite hr] at hc
    rcases List.mem_append.mp hc with hc | hc
    · exact isNumberChar_of_mem_signChars _ c hc
    · exact isNumberChar_of_mem_magnitude hr c hc

theorem toNat_of_isNumberChar {c : Char} (h : isNumberChar c) :
    0x21 ≤ c.toNat ∧ c.toNat ≤ 0x7E := by
  rcases Bool.or_eq_true_iff.mp h with h | h
  · have hd : 48 ≤ c.toNat ∧ c.toNat ≤ 57 := Char.isDigit_iff_toNat.mp h
    omega
  · have hall : ['.', '-', '+', 'e', 'N', 'a', 'I', 'n', 'f', 'i', 't', 'y'].all fun c =>
        0x21 ≤ c.toNat && c.toNat ≤ 0x7E := by decide
    simpa using List.all_eq_true.mp hall c (by simpa using h)

theorem isPadding_eq_false_of_isNumberChar {c : Char} (h : isNumberChar c) :
    Text.isPadding c = false :=
  Text.isPadding_eq_false_of_visible (toNat_of_isNumberChar h).1 (toNat_of_isNumberChar h).2

theorem hyphenated_chars (v : Float) :
    Text.hyphenated (Format.diagram.chars v) = Format.diagram.chars v :=
  Text.hyphenated_of_not_mem fun hc => absurd (isNumberChar_of_mem_chars v _ hc) (by decide)

/-- A numeral's sign is followed by something else. -/
def isSign (c : Char) : Bool := c == '-' || c == '+'

theorem isSign_eq_false_of_isDigit {c : Char} (hc : c.isDigit) : isSign c = false := by
  rw [isSign, Bool.or_eq_false_iff, beq_eq_false_iff_ne, beq_eq_false_iff_ne]
  constructor <;> rintro rfl <;> exact absurd hc (by decide)

theorem signOf_of_halts {t : List Char} (ht : Halts isSign t) : signOf t = (false, t) := by
  unfold signOf
  split
  · simp [isSign] at ht
  · simp [isSign] at ht
  · rfl

theorem signOf_append (negative : Bool) {t : List Char} (ht : Halts isSign t) :
    signOf (signChars negative ++ t) = (negative, t) := by
  cases negative
  · exact signOf_of_halts ht
  · rfl

/-- A magnitude starts with a digit. -/
theorem exists_magnitude_eq_cons {r : Nat} (hr : r < infinityRank) :
    ∃ c s, Format.diagram.magnitude r = c :: s ∧ c.isDigit := by
  have key : ∀ {whole fraction s : List Char} {e : Int} {d : Decimal}, Spells whole fraction e d →
      ∃ c s', whole ++ s = c :: s' ∧ c.isDigit := by
    intro whole fraction s e d h
    obtain ⟨c, w, rfl⟩ := List.exists_cons_of_ne_nil h.ne_nil
    exact ⟨c, w ++ s, rfl, h.wholeDigits c List.mem_cons_self⟩
  unfold Format.magnitude
  split
  · exact ⟨'0', [], rfl, rfl⟩
  · next h0 =>
    have hd := normal_shortest h0 hr
    simp only
    split
    · obtain ⟨whole, fraction, heq, hs⟩ := exists_positional_eq hd
      exact heq ▸ key hs
    · obtain ⟨whole, fraction, heq, hs⟩ := exists_scientific_eq hd
      exact heq ▸ key hs

theorem ofRank_showsMinus (v : Float) : ofRank (showsMinus v) (rank v) = unsignZero v := by
  by_cases h0 : rank v = 0
  · simp [unsignZero, showsMinus, h0]
  · have hs : showsMinus v = isNegative v := by simp [showsMinus, h0]
    rw [hs, ofRank_rank, unsignZero, if_neg h0]

/-- A spelled number is scanned whole if what follows halts a numeral. -/
theorem scan?_chars {v : Float} (hv : isNaN v = false) {t : List Char}
    (ht : Halts isNumeralChar t) :
    ∃ n, Numeral.scan? (Format.diagram.chars v ++ t) = some n ∧ n.toFloat = unsignZero v := by
  -- the sign is read first, so that only the magnitude is left to scan
  suffices h : ∃ m, Magnitude.scan? (signOf (Format.diagram.chars v ++ t)).2 = some m ∧
      (signOf (Format.diagram.chars v ++ t)).1 = showsMinus v ∧ m.rank = rank v by
    obtain ⟨m, hm, hs, hrank⟩ := h
    refine ⟨⟨showsMinus v, m⟩, by rw [Numeral.scan?_eq, hm, hs]; rfl, ?_⟩
    rw [Numeral.toFloat, hrank, ofRank_showsMinus]
  rcases rank_cases v with hn | hi | hr
  · simp [hv] at hn
  · have hs : signOf (Format.diagram.chars v ++ t) = (showsMinus v, "Infinity".toList ++ t) := by
      rw [chars_of_infinite hi, List.append_assoc]
      exact signOf_append _ (halts_cons.mpr rfl)
    rw [hs]
    exact ⟨.infinity, by simp [Magnitude.scan?], rfl, hi.symm⟩
  · obtain ⟨c, s, heq, hc⟩ := exists_magnitude_eq_cons hr
    have hs : signOf (Format.diagram.chars v ++ t) =
        (showsMinus v, Format.diagram.magnitude (rank v) ++ t) := by
      rw [chars_of_finite hr, List.append_assoc, heq]
      exact signOf_append _ (halts_cons.mpr (isSign_eq_false_of_isDigit hc))
    rw [hs]
    obtain ⟨m, hm, hrank⟩ := scan?_magnitude hr ht
    exact ⟨m, hm, rfl, hrank⟩

theorem chars_ne_nil (v : Float) : Format.diagram.chars v ≠ [] := by
  rcases rank_cases v with hn | hi | hr
  · rw [chars_of_isNaN hn]
    decide
  · rw [chars_of_infinite hi]
    simp
  · obtain ⟨c, s, heq, -⟩ := exists_magnitude_eq_cons hr
    rw [chars_of_finite hr, heq]
    simp

theorem halts_hyphenated {t : List Char} (ht : Halts isNumeralChar t) :
    Halts isNumeralChar (Text.hyphenated t) := by
  cases t with
  | nil => exact halts_nil _
  | cons c t =>
    rw [Text.hyphenated, List.map_cons, halts_cons]
    split
    · rfl
    · exact halts_cons.mp ht

/-- No numeral starts with the word for a NaN. -/
theorem scan?_nan (t : List Char) : Numeral.scan? ("NaN".toList ++ t) = none := rfl

/-- Reading undoes writing, but for the sign of a zero, whatever follows that halts a numeral. -/
theorem ofToken_chars_append (v : Float) {t : List Char} (ht : Halts isNumeralChar t) :
    ofToken (Format.diagram.chars v ++ t) = unsignZero v := by
  have hhalt : ∀ s : List Char, (∀ c ∈ s, isNumberChar c) → Halts Text.isPadding s :=
    fun s hs c hc => isPadding_eq_false_of_isNumberChar (hs c (List.mem_of_mem_head? hc))
  have hall := isNumberChar_of_mem_chars v
  obtain ⟨t', hprefix, htrim⟩ := Text.exists_trimWhile_append (chars_ne_nil v) (hhalt _ hall)
    (hhalt _ fun c hc => hall c (List.mem_reverse.mp hc)) t
  have hhyphen : Text.hyphenated (Format.diagram.chars v ++ t') =
      Format.diagram.chars v ++ Text.hyphenated t' := by
    conv_rhs => rw [← hyphenated_chars v]
    exact List.map_append
  rw [ofToken, Text.trimPadding, htrim, hhyphen]
  by_cases hv : isNaN v
  · rw [chars_of_isNaN hv, scan?_nan, eq_notANumber hv]
    decide +kernel
  · obtain ⟨n, hn, hval⟩ :=
      scan?_chars (by simpa using hv) (halts_hyphenated (ht.of_isPrefix hprefix))
    rw [hn]
    exact hval

theorem ofToken_chars (v : Float) : ofToken (Format.diagram.chars v) = unsignZero v := by
  simpa using ofToken_chars_append v (halts_nil _)

/-- A number is read back bit for bit, but for the sign of a zero, and a NaN as NaN, whatever text
follows that a numeral cannot go on with. -/
theorem toBits_ofToken_chars_append (v : Float) {t : List Char} (ht : Halts isNumeralChar t) :
    (isNaN v → isNaN (ofToken (Format.diagram.chars v ++ t))) ∧
    (¬isNaN v → (ofToken (Format.diagram.chars v ++ t)).toBits =
      if v.toBits = 0x8000000000000000 then 0 else v.toBits) ∧
    ofToken (Format.diagram.chars v ++ t) = ofToken (Format.diagram.chars v) := by
  rw [ofToken_chars_append v ht, ofToken_chars, toBits_unsignZero]
  refine ⟨fun hv => ?_, fun _ => rfl, rfl⟩
  have h0 : rank v ≠ 0 := fun h0 => by simp [isNaN, h0] at hv
  rwa [unsignZero, if_neg h0]

/-- The least magnitude below zero, before a minus sign, which could start a numeral only. -/
theorem toBits_ofToken_chars_append_least : Halts isNumeralChar "\u22125e ".toList ∧
    ¬isNaN (ofRank true 1) ∧
    (ofToken (Format.diagram.chars (ofRank true 1) ++ "\u22125e ".toList)).toBits =
      0x8000000000000001 :=
  have ht : Halts isNumeralChar "\u22125e ".toList := by decide
  have hv : ¬isNaN (ofRank true 1) := by decide +kernel
  have hbits : (ofRank true 1).toBits = 0x8000000000000001 := by decide +kernel
  ⟨ht, hv, ((toBits_ofToken_chars_append (ofRank true 1) ht).2.1 hv).trans (by rw [hbits]; rfl)⟩

theorem ofToken_blank_cons (s : List Char) : ofToken (' ' :: s) = ofToken s := rfl

theorem chars_of_zero {v : Float} (h0 : rank v = 0) : Format.diagram.chars v = ['0'] := by
  rw [chars_of_finite (by rw [h0]; decide), showsMinus, h0]
  simp [signChars, Format.magnitude, Format.diagram]

theorem chars_of_nonzero {v : Float} (h0 : rank v ≠ 0) (hr : rank v < infinityRank) :
    Format.diagram.chars v = signChars (isNegative v) ++ Format.diagram.magnitude (rank v) := by
  rw [chars_of_finite hr, showsMinus, bne_iff_ne.mpr h0, Bool.and_true]

theorem chars_unsignZero (v : Float) :
    Format.diagram.chars (unsignZero v) = Format.diagram.chars v := by
  by_cases h0 : rank v = 0
  · have hzero : rank (ofRank false 0) = 0 := by decide +kernel
    rw [unsignZero, if_pos h0, chars_of_zero hzero, chars_of_zero h0]
  · rw [unsignZero, if_neg h0]

/-! ## Numbers without an exponent -/

/-- Zero, and the magnitudes from `1e-6` up to `1e21`. -/
def IsPositional (v : Float) : Prop :=
  rank v = 0 ∨ rankOfDecimal 1 (-6) ≤ rank v ∧ rank v < rankOfDecimal 1 21

instance (v : Float) : Decidable (IsPositional v) := inferInstanceAs (Decidable (_ ∨ _ ∧ _))

theorem IsPositional.rank_lt {v : Float} (h : IsPositional v) : rank v < infinityRank := by
  rcases h with h | ⟨-, h⟩
  · rw [h]
    decide
  · exact h.trans_le (rankOfDecimal_le_infinity _ _)

theorem leastPoint_le {r : Nat} (hr : r < infinityRank) (hlo : rankOfDecimal 1 (-6) ≤ r) :
    -5 ≤ (shortest r).point := by
  have h0 : r ≠ 0 := by
    rintro rfl
    exact absurd hlo (by decide +kernel)
  by_contra hcon
  -- such a decimal is below `1e-6`, so that it could only be read back as `1e-6` itself
  have hle := (normal_shortest h0 hr).rank_le (show (shortest r).point ≤ -6 by omega)
  rw [rank_shortest hr] at hle
  have heq : r = rankOfDecimal 1 (-6) := hle.antisymm hlo
  rw [heq] at hcon
  exact hcon (by decide +kernel)

theorem point_le_greatestPoint {r : Nat} (h0 : r ≠ 0) (hhi : r < rankOfDecimal 1 21) :
    (shortest r).point ≤ 21 := by
  have hr : r < infinityRank := hhi.trans_le (rankOfDecimal_le_infinity _ _)
  by_contra hcon
  have hle := (normal_shortest h0 hr).le_rank (show 21 < (shortest r).point by omega)
  rw [rank_shortest hr] at hle
  omega

theorem IsPositional.exists_chars_eq {v : Float} (h : IsPositional v) :
    ∃ whole fraction, Format.diagram.chars v =
        signChars (showsMinus v) ++ (whole ++ pointed fraction) ∧
      whole ≠ [] ∧ (∀ c ∈ whole, c.isDigit) ∧ ∀ c ∈ fraction, c.isDigit := by
  have hr := h.rank_lt
  rw [chars_of_finite hr]
  rcases h with h0 | ⟨hlo, hhi⟩
  · exact ⟨['0'], [], by rw [h0]; rfl, by simp, by simp, by simp⟩
  · have h0 : rank v ≠ 0 := by
      intro hz
      rw [hz] at hlo
      exact absurd hlo (by decide +kernel)
    obtain ⟨whole, fraction, heq, hs⟩ := exists_positional_eq (normal_shortest h0 hr)
    refine ⟨whole, fraction, ?_, hs.ne_nil, hs.wholeDigits, hs.fractionDigits⟩
    simp only [Format.magnitude, if_neg h0]
    rw [if_pos ⟨leastPoint_le hr hlo, point_le_greatestPoint h0 hhi⟩, heq]

end LineChart.Number
