import LineChart.Number.Literal
import LineChart.Proofs.Number.Grammar
import LineChart.Proofs.Number.Rounding
import LineChart.Proofs.Text.Compaction

namespace LineChart.Number

/-! ## Bytes as characters -/

/-- The character with the number of the byte. -/
def byteChar (b : UInt8) : Char := Char.ofNat b.toNat

theorem toNat_byteChar (b : UInt8) : (byteChar b).toNat = b.toNat := by
  have := b.toNat_lt
  rw [byteChar, Char.toNat_ofNat, if_pos (by unfold Nat.isValidChar; omega)]

theorem toNat_toUInt8 {c : Char} (hc : c.toNat < 256) : c.toUInt8.toNat = c.toNat := by
  rw [Char.toUInt8, UInt32.toNat_toUInt8]
  exact Nat.mod_eq_of_lt hc

theorem toUInt8_byteChar (b : UInt8) : (byteChar b).toUInt8 = b := by
  have hb := toNat_byteChar b
  rw [← UInt8.toNat_inj, toNat_toUInt8 (hb ▸ b.toNat_lt), hb]

theorem byteChar_toUInt8 {c : Char} (hc : c.toNat < 256) : byteChar c.toUInt8 = c := by
  rw [← Char.toNat_inj, toNat_byteChar, toNat_toUInt8 hc]

theorem byteChar_eq_iff {b : UInt8} {c : Char} (hc : c.toNat < 256) :
    b = c.toUInt8 ↔ byteChar b = c := by
  constructor
  · rintro rfl
    exact byteChar_toUInt8 hc
  · rintro rfl
    exact (toUInt8_byteChar b).symm

theorem isDigitByte_eq : isDigitByte = Char.isDigit ∘ byteChar := by
  funext b
  rw [Function.comp_apply, Bool.eq_iff_iff, Char.isDigit_iff_toNat, toNat_byteChar, isDigitByte,
    Bool.and_eq_true, decide_eq_true_iff, decide_eq_true_iff, UInt8.le_iff_toNat_le,
    UInt8.le_iff_toNat_le]
  rfl

theorem ascii_byteChars (l : List UInt8) : ascii (l.map byteChar) = l := by
  rw [ascii, List.map_map]
  exact (List.map_congr_left fun b _ => toUInt8_byteChar b).trans (List.map_id l)

theorem byteChars_ascii {s : List Char} (hs : IsAscii s) :
    (ascii s).map byteChar = s := by
  rw [ascii, List.map_map]
  refine (List.map_congr_left fun c hc => ?_).trans (List.map_id s)
  exact byteChar_toUInt8 ((hs c hc).trans (by decide))

/-- Bytes start with an ASCII text if their characters do. -/
theorem ascii_prefix_iff {w : List Char} (hw : IsAscii w) {l : List UInt8} :
    ascii w <+: l ↔ w <+: l.map byteChar := by
  constructor
  · intro h
    simpa only [byteChars_ascii hw] using h.map byteChar
  · intro h
    simpa only [ascii, List.map_map, toUInt8_byteChar, Function.comp_def, List.map_id'] using
      h.map Char.toUInt8

theorem ascii_append (s t : List Char) : ascii (s ++ t) = ascii s ++ ascii t := List.map_append

/-- From place `i` on the bytes read `s`. -/
structure ReadsAt (b : Array UInt8) (i : Nat) (s : List Char) : Prop where
  le_size : i ≤ b.size
  text : (b.toList.drop i).map byteChar = s

theorem readsAt_zero (b : Array UInt8) : ReadsAt b 0 (b.toList.map byteChar) :=
  ⟨Nat.zero_le _, rfl⟩

namespace ReadsAt

variable {b : Array UInt8} {i : Nat} {s t : List Char} {c : Char}

theorem drop_eq (h : ReadsAt b i s) : b.toList.drop i = ascii s := by
  rw [← h.text, ascii_byteChars]

theorem size_eq (h : ReadsAt b i s) : b.size = i + s.length := by
  have hlen := congrArg List.length h.text
  simp only [List.length_map, List.length_drop, Array.length_toList] at hlen
  have := h.le_size
  omega

theorem append (h : ReadsAt b i (s ++ t)) : ReadsAt b (i + s.length) t := by
  have hsize := h.size_eq
  rw [List.length_append] at hsize
  refine ⟨by omega, ?_⟩
  rw [← List.drop_drop, List.map_drop, h.text, List.drop_left]

theorem slice_append (h : ReadsAt b i (s ++ t)) : slice b i (i + s.length) = .ok (ascii s) := by
  have hsize := h.size_eq
  rw [List.length_append] at hsize
  rw [slice, if_pos ⟨Nat.le_add_right _ _, by omega⟩, Array.toList_extract, List.extract_eq_take_drop,
    h.drop_eq, Nat.add_sub_cancel_left, ascii, ← List.map_take, List.take_left, ascii]

theorem slice_rest (h : ReadsAt b i s) : slice b i b.size = .ok (ascii s) := by
  rw [h.size_eq]
  exact slice_append (t := []) (by rwa [List.append_nil])

/-- Which byte stands there is told by the first character, if the character is a byte at all. -/
theorem getElem?_eq_iff (h : ReadsAt b i s) (hc : c.toNat < 256) :
    b[i]? = some c.toUInt8 ↔ s.head? = some c := by
  have hget : b[i]? = (b.toList.drop i).head? := by rw [List.head?_drop, Array.getElem?_toList]
  rw [hget, ← h.text, List.head?_map]
  cases (b.toList.drop i).head? with
  | none => simp
  | some byte => simpa using byteChar_eq_iff hc

theorem tail (h : ReadsAt b i (c :: s)) : ReadsAt b (i + 1) s := append (s := [c]) h

/-! ## Each reader on bytes does what its counterpart does on characters -/

theorem digitsFrom_eq (h : ReadsAt b i s) :
    digitsFrom b i = .ok (s.takeWhile Char.isDigit).length := by
  have hall : (ascii s).takeWhile isDigitByte = ascii (s.takeWhile Char.isDigit) := by
    rw [← h.text, ascii_byteChars, isDigitByte_eq, List.takeWhile_map, ascii_byteChars]
  rw [digitsFrom, h.slice_rest]
  simp only [bind, Except.bind, pure, Except.pure, hall]
  rw [ascii, List.length_map]

theorem signAt_eq (h : ReadsAt b i s) :
    ∃ j, signAt b i = ((signOf s).1, j) ∧ ReadsAt b j (signOf s).2 := by
  have hminus := h.getElem?_eq_iff (c := '-') (by decide)
  have hplus := h.getElem?_eq_iff (c := '+') (by decide)
  unfold signAt
  rcases sign_cases s with ⟨t, rfl⟩ | ⟨t, rfl⟩ | hs
  · exact ⟨i + 1, if_pos (hminus.mpr rfl), h.tail⟩
  · refine ⟨i + 1, ?_, h.tail⟩
    rw [if_neg (mt hminus.mp (by simp)), if_pos (hplus.mpr rfl)]
    rfl
  · have hne : ∀ c, isSign c → s.head? ≠ some c := fun c hc hs' => by
      rw [hs c hs'] at hc
      exact absurd hc (by simp)
    rw [signOf_of_halts hs]
    exact ⟨i, by rw [if_neg (mt hminus.mp (hne _ rfl)), if_neg (mt hplus.mp (hne _ rfl))], h⟩

theorem fractionAt_eq (h : ReadsAt b i s) :
    ∃ j, fractionAt b i = .ok (ascii (fractionOf s).1, j) ∧ ReadsAt b j (fractionOf s).2 := by
  have hpoint := h.getElem?_eq_iff (c := '.') (by decide)
  unfold fractionAt
  by_cases hs : Halts (· == '.') s
  · have hne : s.head? ≠ some '.' := fun hs' => absurd (hs _ hs') (by simp)
    rw [fractionOf_of_halts hs, if_neg (mt hpoint.mp hne)]
    exact ⟨i, rfl, h⟩
  · obtain ⟨c, rest, rfl, hc⟩ := exists_cons_of_not_halts hs
    obtain rfl := beq_iff_eq.mp hc
    have hrest : ReadsAt b (i + 1) (rest.takeWhile Char.isDigit ++ rest.dropWhile Char.isDigit) := by
      rw [List.takeWhile_append_dropWhile]
      exact h.tail
    rw [if_pos (hpoint.mpr rfl), h.tail.digitsFrom_eq]
    simp only [bind, Except.bind, hrest.slice_append]
    exact ⟨_, rfl, hrest.append⟩

end ReadsAt

theorem ascii_eq_nil_iff {s : List Char} : ascii s = [] ↔ s = [] := List.map_eq_nil_iff

theorem minusBytes_eq (negative : Bool) : minusBytes negative = ascii (signChars negative) := by
  cases negative <;> rfl

/-- The exponent of a literal, as `exponentAt` writes it. -/
def exponentLiteral (s : List Char) : List Char :=
  match s with
  | c :: rest =>
    if c = 'e' ∨ c = 'E' then
      let digits := (signOf rest).2.takeWhile Char.isDigit
      if digits = [] then [] else 'e' :: (signChars (signOf rest).1 ++ digits)
    else []
  | [] => []

theorem exponentLiteral_of_halts {s : List Char} (hs : Halts (fun c => c == 'e' || c == 'E') s) :
    exponentLiteral s = [] := by
  cases s with
  | nil => rfl
  | cons c rest => exact if_neg (by simpa using hs)

theorem ReadsAt.exponentAt_eq {b : Array UInt8} {i : Nat} {s : List Char} (h : ReadsAt b i s) :
    exponentAt b i = .ok (ascii (exponentLiteral s)) := by
  have hmark : b[i]? = some 'e'.toUInt8 ∨ b[i]? = some 'E'.toUInt8 ↔
      s.head? = some 'e' ∨ s.head? = some 'E' :=
    or_congr (h.getElem?_eq_iff (by decide)) (h.getElem?_eq_iff (by decide))
  by_cases hs : Halts (fun c => c == 'e' || c == 'E') s
  · have hne : ¬(s.head? = some 'e' ∨ s.head? = some 'E') := by
      rintro (hs' | hs') <;> exact absurd (hs _ hs') (by decide)
    rw [exponentLiteral_of_halts hs, exponentAt, if_neg (mt hmark.mp hne)]
    rfl
  obtain ⟨c, rest, rfl, hc⟩ := exists_cons_of_not_halts hs
  replace hc : c = 'e' ∨ c = 'E' := by simpa using hc
  obtain ⟨j, hj, hdigits⟩ := h.tail.signAt_eq
  rw [exponentAt, if_pos (hmark.mpr (by simpa using hc)), hj, exponentLiteral, if_pos hc]
  simp only [bind, Except.bind, pure, Except.pure, hdigits.digitsFrom_eq,
    List.length_eq_zero_iff]
  by_cases hnil : (signOf rest).2.takeWhile Char.isDigit = []
  · simp [hnil, ascii]
  · rw [← List.takeWhile_append_dropWhile (p := Char.isDigit) (l := (signOf rest).2)] at hdigits
    rw [if_neg hnil, if_neg hnil, hdigits.slice_append, minusBytes_eq]
    exact congrArg Except.ok (by simp [ascii])

/-- The literal for the longest numeral that a text starts with. -/
def literalOf? (s : List Char) : Option (List Char) :=
  let (negative, rest) := signOf s
  if "Infinity".toList.isPrefixOf rest then some (signChars negative ++ "inf".toList)
  else
    let whole := rest.takeWhile Char.isDigit
    let (fraction, tail) := fractionOf (rest.dropWhile Char.isDigit)
    if whole = [] ∧ fraction = [] then none
    else some (signChars negative ++ ((if whole = [] then ['0'] else whole) ++
      (pointed fraction ++ exponentLiteral tail)))

theorem ReadsAt.isPrefixOf_word {b : Array UInt8} {i : Nat} {s : List Char} (h : ReadsAt b i s) :
    (ascii "Infinity".toList).isPrefixOf (ascii s) = "Infinity".toList.isPrefixOf s := by
  have hword : IsAscii "Infinity".toList := by decide
  rw [Bool.eq_iff_iff, List.isPrefixOf_iff_prefix, List.isPrefixOf_iff_prefix,
    ascii_prefix_iff hword, ← h.text, ascii_byteChars]

/-- No slice is out of range, and what comes out is the literal of the text. -/
theorem literalPrefix?_eq (b : Array UInt8) :
    literalPrefix? b = .ok ((literalOf? (b.toList.map byteChar)).map ascii) := by
  obtain ⟨start, hstart, hrest⟩ := (readsAt_zero b).signAt_eq
  generalize b.toList.map byteChar = s at *
  rw [literalPrefix?, hstart, literalOf?]
  generalize signOf s = p at *
  obtain ⟨negative, rest⟩ := p
  simp only [bind, Except.bind, pure, Except.pure, hrest.slice_rest, hrest.isPrefixOf_word,
    minusBytes_eq]
  split
  · simp [ascii_append]
  have hwhole := hrest
  rw [← List.takeWhile_append_dropWhile (p := Char.isDigit) (l := rest)] at hwhole
  obtain ⟨next, hnext, htail⟩ := hwhole.append.fractionAt_eq
  simp only [hrest.digitsFrom_eq, hwhole.slice_append, hnext, ascii_eq_nil_iff]
  split
  · rfl
  · simp only [htail.exponentAt_eq, Option.map_some, pointed, ascii_append, List.append_assoc,
      apply_ite ascii]
    rfl

/-! ## The literal stands for the longest numeral -/

theorem canonical_exponentLiteral (s : List Char) :
    CanonicalExponent (exponentLiteral s) (exponentOf s) := by
  by_cases hs : Halts (fun c => c == 'e' || c == 'E') s
  · rw [exponentLiteral_of_halts hs, exponentOf_of_halts hs]
    exact .absent
  obtain ⟨c, rest, rfl, hc⟩ := exists_cons_of_not_halts hs
  replace hc : c = 'e' ∨ c = 'E' := by simpa using hc
  rw [exponentOf_eq hc, exponentLiteral, if_pos hc]
  by_cases hnil : (signOf rest).2.takeWhile Char.isDigit = []
  · simpa [hnil] using CanonicalExponent.absent
  · simp only [if_neg hnil]
    exact .present _ hnil fun c hc => List.mem_takeWhile_imp hc

/-- A whole part that is left out is a zero. -/
theorem value_whole (whole fraction : List Char) (e : Int) :
    (Magnitude.decimal (if whole = [] then ['0'] else whole) fraction e).value =
      (Magnitude.decimal whole fraction e).value := by
  split
  · next h => simp [Magnitude.value, h, Nat.ofDigitChars_cons]
  · rfl

theorem FractionWritten.isDigit {w fraction : List Char} (h : FractionWritten w fraction) :
    ∀ c ∈ fraction, c.isDigit := by
  cases h with
  | absent => exact List.forall_mem_nil _
  | present hdigits => exact hdigits

theorem literalOf?_eq_none_iff {s : List Char} : literalOf? s = none ↔ Numeral.scan? s = none := by
  simp only [literalOf?, Numeral.scan?]
  split
  · simp
  · split <;> simp

/-- The literal has the canonical form, and denotes what the numeral denotes. -/
theorem exists_canonical {s : List Char} {n : Numeral} (h : Numeral.scan? s = some n) :
    ∃ literal, ∃ n' : Numeral, literalOf? s = some literal ∧ n'.Canonical literal ∧
      n'.value = n.value := by
  simp only [Numeral.scan?, literalOf?] at h ⊢
  split at h
  · next hword =>
    obtain rfl := Option.some.inj h
    exact ⟨_, _, if_pos hword, .infinity _, rfl⟩
  next hword =>
  split at h
  · exact absurd h (by simp)
  · next hne =>
    obtain rfl := Option.some.inj h
    obtain ⟨point, hpoint, -⟩ := exists_fraction ((signOf s).2.dropWhile Char.isDigit)
    have hdigits : ∀ c ∈ (signOf s).2.takeWhile Char.isDigit, c.isDigit :=
      fun c hc => List.mem_takeWhile_imp hc
    refine ⟨_, ⟨_, _⟩, (if_neg hword).trans (if_neg hne),
      .decimal (signOf s).1 ?_ ?_ hpoint.isDigit (canonical_exponentLiteral _),
      congrArg (Prod.mk _) (value_whole _ _ _)⟩
    · split <;> simp_all
    · split
      · simp
      · exact hdigits

/-! ## UTF-8 -/

theorem utf8EncodeChar_of_ascii {c : Char} (hc : c.toNat < 128) :
    String.utf8EncodeChar c = [c.toUInt8] :=
  String.utf8EncodeChar_eq_singleton (Char.utf8Size_eq_one_iff.mpr (Nat.le_of_lt_succ hc))

/-- The first byte of any other character is none of ASCII. -/
theorem utf8EncodeChar_of_not_ascii {c : Char} (hc : ¬c.toNat < 128) :
    ∃ byte t, String.utf8EncodeChar c = byte :: t ∧ 128 ≤ byte.toNat := by
  simp only [Char.toNat] at hc
  simp only [String.utf8EncodeChar]
  rw [if_neg (by omega)]
  split
  · exact ⟨_, _, rfl, by rw [UInt8.toNat_ofNat']; omega⟩
  · split
    · exact ⟨_, _, rfl, by rw [UInt8.toNat_ofNat']; omega⟩
    · exact ⟨_, _, rfl, by rw [UInt8.toNat_ofNat']; omega⟩

/-- A text starts with an ASCII text if its bytes do. -/
theorem ascii_prefix_utf8_iff {w s : List Char} (hw : IsAscii w) :
    ascii w <+: s.flatMap String.utf8EncodeChar ↔ w <+: s := by
  induction w generalizing s with
  | nil => simp [ascii]
  | cons c w ih =>
    obtain ⟨hc, hw⟩ := isAscii_cons.mp hw
    cases s with
    | nil => simp [ascii]
    | cons d s =>
      rw [List.cons_prefix_cons, ← ih hw, List.flatMap_cons]
      by_cases hd : d.toNat < 128
      · have hinj : c.toUInt8 = d.toUInt8 ↔ c = d := by
          rw [← UInt8.toNat_inj, toNat_toUInt8 (by omega), toNat_toUInt8 (by omega), Char.toNat_inj]
        rw [utf8EncodeChar_of_ascii hd, List.singleton_append, ascii, List.map_cons,
          List.cons_prefix_cons, hinj, ascii]
      · obtain ⟨byte, t, hbyte, hlow⟩ := utf8EncodeChar_of_not_ascii hd
        have hne : c.toUInt8 ≠ byte := by
          rintro rfl
          rw [toNat_toUInt8 (by omega)] at hlow
          omega
        have hne' : c ≠ d := by
          rintro rfl
          exact hd hc
        rw [hbyte, List.cons_append, ascii, List.map_cons, List.cons_prefix_cons]
        simp [hne, hne']

/-- The texts that spell a numeral, as bytes. -/
def IsNumeralBytes (p : List UInt8) : Prop := ∃ w, IsNumeral w ∧ p = ascii w

theorem toList_tokenBytes (token : List Char) : (tokenBytes token).toList =
    (Text.hyphenated (Text.trimPadding token)).flatMap String.utf8EncodeChar :=
  Text.toList_toUTF8 _

/-- They are what is left of the trimmed token when its bytes are shortened in place. -/
theorem tokenBytes_eq (token : List Char) : tokenBytes token =
    Text.hyphenateBytes (String.ofList (Text.trimPadding token)).toUTF8.data := by
  have h := Text.hyphenateBytes_toUTF8 (String.ofList (Text.trimPadding token))
  rw [String.toList_ofList] at h
  exact (congrArg ByteArray.data h).symm

/-- Reading bytes as characters finds the same numeral. -/
theorem scan?_byteChars (s : List Char) :
    Numeral.scan? ((s.flatMap String.utf8EncodeChar).map byteChar) = Numeral.scan? s := by
  apply Option.ext
  intro n
  rw [Numeral.scan?_eq_some_iff, Numeral.scan?_eq_some_iff]
  refine exists_congr fun w => and_congr_right fun _ => longestPrefix_congr (fun w hw => ?_) w
  rw [← ascii_prefix_iff hw.isAscii, ascii_prefix_utf8_iff hw.isAscii]

theorem LongestPrefix.ascii {s w : List Char} (h : LongestPrefix IsNumeral s w) :
    LongestPrefix IsNumeralBytes (s.flatMap String.utf8EncodeChar) (Number.ascii w) := by
  refine ⟨⟨w, h.mem, rfl⟩, (ascii_prefix_utf8_iff h.mem.isAscii).mpr h.isPrefix, ?_⟩
  rintro _ ⟨w', hw', rfl⟩ hp
  simpa [Number.ascii] using h.longest w' hw' ((ascii_prefix_utf8_iff hw'.isAscii).mp hp)

/-! ## Correct rounding -/

/-- The number has the sign of the value and the magnitude nearest to it. -/
def RoundsTo (value : Bool × WithTop ℚ) (v : Float) : Prop :=
  isNegative v = value.1 ∧ (value.2 = ⊤ → rank v = infinityRank) ∧
    ∀ x : ℚ, value.2 = x → IsNearest x (rank v)

/-- Correct rounding leaves no choice. -/
theorem RoundsTo.unique {value : Bool × WithTop ℚ} {v w : Float} (hv : RoundsTo value v)
    (hw : RoundsTo value w) : v = w := by
  have hrank : rank v = rank w := by
    cases hx : value.2 using WithTop.recTopCoe with
    | top => rw [hv.2.1 hx, hw.2.1 hx]
    | coe x => exact (hv.2.2 x hx).unique (hw.2.2 x hx)
  rw [← ofRank_rank v, ← ofRank_rank w, hv.1, hw.1, hrank]

theorem RoundsTo.isNaN_eq_false {value : Bool × WithTop ℚ} {v : Float} (h : RoundsTo value v) :
    isNaN v = false := by
  apply Number.isNaN_eq_false
  cases hx : value.2 using WithTop.recTopCoe with
  | top => exact (h.2.1 hx).le
  | coe x => exact (h.2.2 x hx).le_infinity

theorem RoundsTo.isInfinite_iff {value : Bool × WithTop ℚ} {v : Float} (h : RoundsTo value v) :
    isInfinite v ↔ (overflow : WithTop ℚ) ≤ value.2 := by
  rw [isInfinite, beq_iff_eq]
  cases hx : value.2 using WithTop.recTopCoe with
  | top => simp [h.2.1 hx]
  | coe x => rw [(h.2.2 x hx).eq_infinity_iff, WithTop.coe_le_coe]

theorem Magnitude.rank_le_infinity (m : Magnitude) : m.rank ≤ infinityRank := by
  cases m with
  | infinity => exact le_rfl
  | decimal => exact rankOfDecimal_le_infinity _ _

theorem Numeral.roundsTo_toFloat (n : Numeral) : RoundsTo n.value n.toFloat := by
  have hr := n.magnitude.rank_le_infinity
  refine ⟨isNegative_ofRank hr _, ?_, ?_⟩ <;> rw [toFloat, rank_ofRank hr, value]
  · cases n.magnitude with
    | infinity => exact fun _ => rfl
    | decimal => exact fun h => absurd h (WithTop.coe_ne_top)
  · cases n.magnitude with
    | infinity => exact fun x h => absurd h.symm (WithTop.coe_ne_top)
    | decimal whole fraction e =>
      intro x hx
      rw [← WithTop.coe_inj.mp hx]
      exact isNearest_rankOfDecimal _ _

/-! ## Reading a token by way of a literal -/

/-- The conversion accepts every canonical literal and rounds it correctly. -/
def ConvertsLiterals (convert : List UInt8 → Option Float) : Prop :=
  ∀ (w : List Char) (n : Numeral), n.Canonical w →
    ∃ v, convert (ascii w) = some v ∧ RoundsTo n.value v

/-- What reading a token comes to. -/
structure TokenRead (convert : List UInt8 → Option Float) (token : List Char)
    (literal? : Option (List UInt8)) : Prop where
  /-- In particular no slice is out of range. -/
  literal_eq : literalPrefix? (tokenBytes token) = .ok literal?
  number_eq : ofTokenBy convert token = .ok (ofToken token)
  none_iff : literal? = none ↔ ∀ p, IsNumeralBytes p → ¬p <+: (tokenBytes token).toList
  isNaN_iff : isNaN (ofToken token) ↔ ∀ p, IsNumeralBytes p → ¬p <+: (tokenBytes token).toList
  /-- The literal denotes what the longest numeral denotes, and the number is that, rounded. -/
  some_spec : ∀ literal, literal? = some literal → ∃ w, ∃ n n' : Numeral, ∃ w',
    n.Written w ∧ LongestPrefix IsNumeralBytes (tokenBytes token).toList (ascii w) ∧
    literal = ascii w' ∧ n'.Canonical w' ∧ n'.value = n.value ∧ RoundsTo n.value (ofToken token) ∧
    (isInfinite (ofToken token) ↔
      n.magnitude = .infinity ∨ (overflow : WithTop ℚ) ≤ n.magnitude.value)

theorem no_numeralBytes_iff (s : List Char) :
    (∀ p, IsNumeralBytes p → ¬p <+: s.flatMap String.utf8EncodeChar) ↔ Numeral.scan? s = none := by
  rw [Numeral.scan?_eq_none_iff]
  constructor
  · intro h w hw hp
    exact h _ ⟨w, hw, rfl⟩ ((ascii_prefix_utf8_iff hw.isAscii).mpr hp)
  · rintro h _ ⟨w, hw, rfl⟩ hp
    exact h w hw ((ascii_prefix_utf8_iff hw.isAscii).mp hp)

theorem ofToken_eq {token : List Char} {n? : Option Numeral}
    (h : Numeral.scan? (Text.hyphenated (Text.trimPadding token)) = n?) :
    ofToken token = (n?.map Numeral.toFloat).getD notANumber := by
  subst h
  rw [ofToken]
  split <;> simp_all

theorem ofTokenBy_eq {convert : List UInt8 → Option Float} {token : List Char}
    {literal? : Option (List UInt8)} (h : literalPrefix? (tokenBytes token) = .ok literal?) :
    ofTokenBy convert token = .ok ((literal?.bind convert).getD notANumber) := by
  rw [ofTokenBy, h]
  rfl

/-- A token is read as the longest numeral that it starts with, and rounded correctly. -/
theorem ofToken_longest_numeral {convert : List UInt8 → Option Float}
    (hconvert : ConvertsLiterals convert) (token : List Char) :
    ∃ literal?, TokenRead convert token literal? := by
  have hliteral := literalPrefix?_eq (tokenBytes token)
  have hnone := no_numeralBytes_iff (Text.hyphenated (Text.trimPadding token))
  have hscan := scan?_byteChars (Text.hyphenated (Text.trimPadding token))
  rw [← toList_tokenBytes] at hnone hscan
  cases h : Numeral.scan? (Text.hyphenated (Text.trimPadding token)) with
  | none =>
    have hread : ofToken token = notANumber := ofToken_eq h
    rw [h] at hscan
    rw [literalOf?_eq_none_iff.mpr hscan] at hliteral
    refine ⟨none, hliteral, by rw [ofTokenBy_eq hliteral, hread]; rfl, ?_, ?_, by simp⟩
    · simp [hnone, h]
    · rw [hread]
      simp [hnone, h]
      decide +kernel
  | some n =>
    have hread : ofToken token = n.toFloat := ofToken_eq h
    rw [h] at hscan
    -- the conversion rounds the literal, the reader the numeral, and they denote the same
    obtain ⟨w', n', hw', hcanonical, hvalue⟩ := exists_canonical hscan
    obtain ⟨v, hv, hrounds⟩ := hconvert w' n' hcanonical
    have hfloat := n.roundsTo_toFloat
    obtain rfl : v = n.toFloat := (hvalue ▸ hrounds).unique hfloat
    obtain ⟨w, hw, hlongest⟩ := Numeral.exists_of_scan?_eq_some h
    have hbytes := hlongest.ascii
    rw [← toList_tokenBytes] at hbytes
    rw [hw'] at hliteral
    refine ⟨_, hliteral, ?_, ?_, ?_, ?_⟩
    · rw [ofTokenBy_eq hliteral, hread, Option.map_some, Option.bind_some, hv, Option.getD_some]
    · simp [hnone, h]
    · rw [hread, hfloat.isNaN_eq_false, hnone, h]
      simp
    · rintro _ ⟨⟩
      refine ⟨w, n, n', w', hw, hbytes, rfl, hcanonical, hvalue, hread ▸ hfloat, ?_⟩
      rw [hread, hfloat.isInfinite_iff, Numeral.value]
      refine (or_iff_right_of_imp fun hword => ?_).symm
      rw [hword]
      exact le_top

/-- A conversion that knows `inf` and the numerals. -/
def convertLiteral (literal : List UInt8) : Option Float :=
  let w := literal.map byteChar
  if (signOf w).2 = "inf".toList then some (ofRank (signOf w).1 infinityRank)
  else (Numeral.scan? w).map Numeral.toFloat

theorem convertsLiterals_convertLiteral : ConvertsLiterals convertLiteral := by
  intro w n h
  refine ⟨n.toFloat, ?_, n.roundsTo_toFloat⟩
  cases h with
  | infinity negative => cases negative <;> decide +kernel
  | @decimal negative whole fraction exponent e hne hwhole hfraction hexponent =>
    have hw : Numeral.Written (signChars negative ++ (whole ++ (pointed fraction ++ exponent))) _ :=
      written_of_canonical_decimal hne hwhole hfraction hexponent
    rw [convertLiteral, byteChars_ascii (IsNumeral.isAscii ⟨_, hw⟩), hw.scan?_eq]
    refine if_neg ?_
    obtain ⟨c, t, rfl⟩ := List.exists_cons_of_ne_nil hne
    have hc := hwhole c List.mem_cons_self
    rw [List.cons_append, signOf_append negative
      (halts_cons.mpr (isSign_eq_false_of_isDigit hc))]
    intro heq
    rw [(List.cons.inj heq).1] at hc
    exact absurd hc (by decide)

/-- A byte order mark, a minus sign, no digit before the point, a plus and a unit behind. -/
theorem ofToken_longest_numeral_adorned :
    ConvertsLiterals convertLiteral ∧
    (∃ literal?, TokenRead convertLiteral "\uFEFF\u2212.5e+2em ".toList literal?) ∧
    literalPrefix? (tokenBytes "\uFEFF\u2212.5e+2em ".toList) =
      .ok (some (ascii "-0.5e2".toList)) ∧
    ofToken "\uFEFF\u2212.5e+2em ".toList = ofRank true (rankOfRatio 50 1) :=
  ⟨convertsLiterals_convertLiteral, ofToken_longest_numeral convertsLiterals_convertLiteral _,
    by decide +kernel, by decide +kernel⟩

end LineChart.Number
