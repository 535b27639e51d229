import LineChart.Proofs.Text.Minus

namespace LineChart.Text

/-! ## Single reads and writes -/

theorem byteAt_eq {buffer : Array UInt8} {place : Nat} (h : place < buffer.size) :
    byteAt buffer place = .ok buffer[place] := dif_pos h

theorem putByte_eq {buffer : Array UInt8} {place : Nat} (h : place < buffer.size) (b : UInt8) :
    putByte buffer place b = .ok (buffer.set place b) := dif_pos h

theorem standsAt_eq {buffer : Array UInt8} {bytes : List UInt8} {place : Nat}
    (h : place + bytes.length ≤ buffer.size) :
    standsAt buffer place bytes = .ok (bytes.isPrefixOf (buffer.toList.drop place)) := by
  induction bytes generalizing place with
  | nil => rfl
  | cons b bytes ih =>
    rw [List.length_cons] at h
    have hplace : place < buffer.size := by omega
    rw [List.drop_eq_getElem_cons (by simpa using hplace), List.isPrefixOf_cons_cons, standsAt,
      byteAt_eq hplace]
    simp only [bind, Except.bind, Array.getElem_toList]
    by_cases hb : buffer[place] = b
    · rw [if_pos hb, ih (by omega), hb, beq_self_eq_true, Bool.true_and]
    · rw [if_neg hb, beq_eq_false_iff_ne.mpr (Ne.symm hb)]
      rfl

theorem add_three_le_size {buffer : Array UInt8} {place : Nat}
    (h : minusSign <+: buffer.toList.drop place) : place + 3 ≤ buffer.size := by
  have hlength : 3 ≤ (buffer.toList.drop place).length := h.length_le
  rw [List.length_drop, Array.length_toList] at hlength
  omega

theorem minusAt_iff {bytes : Array UInt8} {place : Nat} :
    minusAt bytes place = true ↔ minusSign <+: bytes.toList.drop place := by
  have hget : ∀ k, (bytes.toList.drop place)[k]? = bytes[place + k]? := fun k => by
    rw [List.getElem?_drop, Array.getElem?_toList]
  simp only [List.prefix_iff_getElem?, hget, minusAt, minusSign, Bool.and_eq_true, beq_iff_eq]
  constructor
  · rintro ⟨⟨h0, h1⟩, h2⟩ i hi
    obtain rfl | rfl | rfl : i = 0 ∨ i = 1 ∨ i = 2 := by
      change i < 3 at hi
      omega
    exacts [h0, h1, h2]
  · intro h
    exact ⟨⟨h 0 (by decide), h 1 (by decide)⟩, h 2 (by decide)⟩

namespace Compaction

variable {bytes : Array UInt8} {c : Compaction}

theorem atMinus_eq (c : Compaction) :
    c.atMinus = .ok (minusSign.isPrefixOf (c.buffer.toList.drop c.read)) := by
  unfold atMinus
  by_cases h : c.read + 2 < c.buffer.size
  · rw [if_pos h, standsAt_eq (show c.read + 3 ≤ c.buffer.size from h)]
  · have hshort : ¬minusSign <+: c.buffer.toList.drop c.read := mt add_three_le_size h
    rw [if_neg h, Bool.eq_false_iff.mpr (mt List.isPrefixOf_iff_prefix.mp hshort)]
    rfl

theorem advance_of_minus (hwritten : c.written < c.buffer.size)
    (h : minusSign <+: c.buffer.toList.drop c.read) :
    c.advance = .ok ⟨c.buffer.set c.written 0x2D, c.read + 3, c.written + 1⟩ := by
  rw [advance, atMinus_eq, List.isPrefixOf_iff_prefix.mpr h, putByte_eq hwritten]
  rfl

theorem advance_of_other (hwritten : c.written ≤ c.read) (hleft : c.read < c.buffer.size)
    (h : ¬minusSign <+: c.buffer.toList.drop c.read) :
    c.advance = .ok ⟨c.buffer.set c.written c.buffer[c.read], c.read + 1, c.written + 1⟩ := by
  rw [advance, atMinus_eq, Bool.eq_false_iff.mpr (mt List.isPrefixOf_iff_prefix.mp h)]
  simp only [bind, Except.bind, Bool.false_eq_true, if_false]
  by_cases hsame : c.read = c.written
  · have hset : c.buffer.set c.written c.buffer[c.read] (by omega) = c.buffer := by
      simp only [hsame, Array.set_getElem_self]
    rw [if_pos hsame, hset]
    rfl
  · rw [if_neg hsame, byteAt_eq hleft]
    simp only [putByte_eq (show c.written < c.buffer.size by omega)]
    rfl

/-- What is read of `bytes` is replaced, and what is not stands where it stood. -/
structure Keeps (bytes : Array UInt8) (c : Compaction) : Prop where
  written_le_read : c.written ≤ c.read
  unread : c.buffer.toList.drop c.read = bytes.toList.drop c.read
  replaced : c.buffer.toList.take c.written ++ hyphenatedBytes (bytes.toList.drop c.read) =
    hyphenatedBytes bytes.toList

namespace Keeps

theorem start (bytes : Array UInt8) : Keeps bytes (.start bytes) :=
  ⟨Nat.le_refl 0, rfl, rfl⟩

/-- The next `n` bytes are read, and what they are replaced by is written. -/
theorem write (h : Keeps bytes c) {b : UInt8} {n : Nat} (hwritten : c.written < c.buffer.size)
    (hn : 0 < n) (hb : hyphenatedBytes (bytes.toList.drop c.read) =
      b :: hyphenatedBytes (bytes.toList.drop (c.read + n))) :
    Keeps bytes ⟨c.buffer.set c.written b, c.read + n, c.written + 1⟩ where
  written_le_read := by
    have := h.written_le_read
    show c.written + 1 ≤ c.read + n
    omega
  unread := by
    have := h.written_le_read
    rw [Array.toList_set, List.drop_set_of_lt (show c.written < c.read + n by omega),
      ← List.drop_drop, h.unread, List.drop_drop]
  replaced := by
    have htake : (c.buffer.toList.set c.written b).take (c.written + 1) =
        c.buffer.toList.take c.written ++ [b] := by
      rw [List.take_succ_eq_append_getElem (by simpa using hwritten), List.getElem_set_self,
        List.take_set, List.set_eq_of_length_le (List.length_take_le _ _)]
    rw [Array.toList_set, htake, List.append_assoc, List.singleton_append, ← hb, h.replaced]

/-- A step never misses the buffer. -/
theorem exists_advance (h : Keeps bytes c) (hleft : c.read < c.buffer.size) :
    ∃ next, c.advance = .ok next ∧ Keeps bytes next := by
  have hwritten : c.written < c.buffer.size := h.written_le_read.trans_lt hleft
  by_cases hminus : minusSign <+: c.buffer.toList.drop c.read
  · refine ⟨_, advance_of_minus hwritten hminus, h.write hwritten (by decide) ?_⟩
    rw [h.unread] at hminus
    obtain ⟨rest, hrest⟩ := hminus
    rw [← List.drop_drop, ← hrest, hyphenatedBytes_minusSign_append]
    rfl
  · refine ⟨_, advance_of_other h.written_le_read hleft hminus, h.write hwritten Nat.one_pos ?_⟩
    have hcons : bytes.toList.drop c.read =
        c.buffer[c.read] :: bytes.toList.drop (c.read + 1) := by
      rw [← List.drop_drop, ← h.unread, List.drop_drop,
        List.drop_eq_getElem_cons (by simpa using hleft), Array.getElem_toList]
    rw [h.unread, hcons] at hminus
    rw [hcons, hyphenatedBytes_cons hminus]

theorem of_advance {next : Compaction} (h : Keeps bytes c) (hleft : c.read < c.buffer.size)
    (hnext : c.advance = .ok next) : Keeps bytes next := by
  obtain ⟨found, hfound, hkeeps⟩ := h.exists_advance hleft
  rw [hnext] at hfound
  exact Except.ok.inj hfound ▸ hkeeps

theorem of_visits (hc : Visits bytes c) : Keeps bytes c := by
  induction hc with
  | start => exact start bytes
  | advance _ hleft hnext ih => exact ih.of_advance hleft hnext

theorem take_eq (h : Keeps bytes c) (hleft : ¬c.read < c.buffer.size) :
    c.buffer.take c.written = (hyphenatedBytes bytes.toList).toArray := by
  have hall : bytes.toList.drop c.read = [] := by
    rw [← h.unread, List.drop_eq_nil_of_le (by simpa using hleft)]
  have hreplaced := h.replaced
  rw [hall, hyphenatedBytes, List.append_nil] at hreplaced
  exact Array.toList_inj.mp (by simpa using hreplaced)

/-- From any state on the way the loop can only end with every minus sign replaced. -/
theorem eq_of_ends {outcome : Except IndexFault (Array UInt8)} (h : Keeps bytes c)
    (hends : Ends c outcome) : outcome = .ok (hyphenatedBytes bytes.toList).toArray := by
  induction hends with
  | done hleft => rw [h.take_eq hleft]
  | fault hleft hfault =>
    obtain ⟨next, hnext, -⟩ := h.exists_advance hleft
    rw [hfault] at hnext
    contradiction
  | advance hleft hnext _ ih => exact ih (h.of_advance hleft hnext)

end Keeps

theorem ends_compactMinus {written read : Nat} (h : written ≤ read) :
    Ends ⟨bytes, read, written⟩ (.ok (compactMinus bytes written read h)) := by
  fun_induction compactMinus bytes written read h with
  | case1 bytes written read h hleft hminus ih =>
    exact .advance hleft (advance_of_minus (h.trans_lt hleft) (minusAt_iff.mp hminus)) ih
  | case2 bytes written read h hleft hminus ih =>
    exact .advance hleft (advance_of_other h hleft (mt minusAt_iff.mpr hminus)) ih
  | case3 bytes written read h hleft => exact .done hleft

theorem ends_hyphenateBytes (bytes : Array UInt8) : Ends (start bytes) (.ok (hyphenateBytes bytes)) :=
  ends_compactMinus (Nat.le_refl 0)

theorem ends_start_iff {outcome : Except IndexFault (Array UInt8)} :
    Ends (start bytes) outcome ↔ outcome = .ok (hyphenateBytes bytes) := by
  have hends := ends_hyphenateBytes bytes
  constructor
  · intro h
    rw [(Keeps.start bytes).eq_of_ends h, (Keeps.start bytes).eq_of_ends hends]
  · rintro rfl
    exact hends

end Compaction

theorem toList_hyphenateBytes (bytes : Array UInt8) :
    (hyphenateBytes bytes).toList = hyphenatedBytes bytes.toList := by
  have h := (Compaction.Keeps.start bytes).eq_of_ends (Compaction.ends_hyphenateBytes bytes)
  exact congrArg Array.toList (Except.ok.inj h)

theorem hyphenateBytes_idempotent (bytes : Array UInt8) :
    hyphenateBytes (hyphenateBytes bytes) = hyphenateBytes bytes := by
  rw [← Array.toList_inj, toList_hyphenateBytes, toList_hyphenateBytes,
    hyphenatedBytes_part (not_isInfix_hyphenatedBytes _)]

theorem toList_toUTF8 (s : List Char) :
    (String.ofList s).toUTF8.data.toList = s.flatMap String.utf8EncodeChar := by
  simp [String.toUTF8, List.utf8Encode]

/-- The bytes of a text become the bytes of a text. -/
theorem hyphenateBytes_toUTF8 (text : String) :
    (⟨hyphenateBytes text.toUTF8.data⟩ : ByteArray) =
      (String.ofList (hyphenated text.toList)).toUTF8 := by
  have htext : text.toUTF8.data.toList = text.toList.flatMap String.utf8EncodeChar := by
    rw [← toList_toUTF8, String.ofList_toList]
  rw [ByteArray.ext_iff, ← Array.toList_inj, toList_hyphenateBytes, htext, hyphenatedBytes_utf8,
    toList_toUTF8]

theorem fromUTF8?_toUTF8 (text : String) : String.fromUTF8? text.toUTF8 = some text :=
  dif_pos text.isValidUTF8

theorem hyphenatedText_eq (repair : ByteArray → String) (text : String) :
    hyphenatedText repair text = String.ofList (hyphenated text.toList) := by
  unfold hyphenatedText
  simp only [hyphenateBytes_toUTF8, fromUTF8?_toUTF8, Option.getD_some]

/-- Shortening a buffer in place never misses the buffer, comes to an end, never overwrites a byte
before it is read, and leaves the bytes with a hyphen for each minus sign and no minus sign. The bytes
of a text stay those of a text, so that they never need a repair. -/
theorem compaction_hyphenates (bytes : Array UInt8) (repair : ByteArray → String) (text : String) :
    (∀ c, Compaction.Visits bytes c → c.written ≤ c.read ∧
      c.buffer.toList.drop c.read = bytes.toList.drop c.read) ∧
    (∀ outcome, Compaction.Ends (.start bytes) outcome ↔ outcome = .ok (hyphenateBytes bytes)) ∧
    (hyphenateBytes bytes).toList = hyphenatedBytes bytes.toList ∧
    (∀ result, IsHyphenated bytes.toList result ↔ result = (hyphenateBytes bytes).toList) ∧
    ¬minusSign <:+: (hyphenateBytes bytes).toList ∧
    hyphenateBytes (hyphenateBytes bytes) = hyphenateBytes bytes ∧
    (⟨hyphenateBytes text.toUTF8.data⟩ : ByteArray) =
      (String.ofList (hyphenated text.toList)).toUTF8 ∧
    hyphenatedText repair text = String.ofList (hyphenated text.toList) := by
  refine ⟨fun c hc => ?_, fun _ => Compaction.ends_start_iff, toList_hyphenateBytes bytes,
    fun result => ?_, ?_, hyphenateBytes_idempotent bytes, hyphenateBytes_toUTF8 text,
    hyphenatedText_eq repair text⟩
  · have hkeeps := Compaction.Keeps.of_visits hc
    exact ⟨hkeeps.written_le_read, hkeeps.unread⟩
  · rw [toList_hyphenateBytes, isHyphenated_iff]
  · rw [toList_hyphenateBytes]
    exact not_isInfix_hyphenatedBytes bytes.toList

/-- After two steps the first byte of a minus sign stands alone and a gap is open behind the hyphen;
the bytes at the end are too few for another minus sign. -/
theorem compaction_hyphenates_midway :
    let bytes : Array UInt8 := #[0xE2, 0xE2, 0x88, 0x92, 0x41, 0xE2, 0x88]
    let c : Compaction := ⟨#[0xE2, 0x2D, 0x88, 0x92, 0x41, 0xE2, 0x88], 4, 2⟩
    Compaction.Visits bytes c ∧ (c.written ≤ c.read ∧
      c.buffer.toList.drop c.read = bytes.toList.drop c.read) ∧
    Compaction.Ends (.start bytes) (.ok #[0xE2, 0x2D, 0x41, 0xE2, 0x88]) ∧
    hyphenatedText (fun _ => "") "a\u2212b" = "a-b" := by
  intro bytes c
  have hvisits : Compaction.Visits bytes c :=
    .advance (.advance .start (by decide) rfl) (by decide) rfl
  obtain ⟨hkeeps, hends, hlist, -, -, -, -, htext⟩ :=
    compaction_hyphenates bytes (fun _ => "") "a\u2212b"
  have hresult : hyphenateBytes bytes = #[0xE2, 0x2D, 0x41, 0xE2, 0x88] :=
    Array.toList_inj.mp (hlist.trans (by decide))
  exact ⟨hvisits, hkeeps c hvisits, (hends _).mpr (congrArg _ hresult.symm),
    htext.trans (by decide)⟩

end LineChart.Text
