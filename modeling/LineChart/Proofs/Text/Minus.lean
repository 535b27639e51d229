import Mathlib.Data.List.Infix
import LineChart.Text.Compaction

namespace LineChart.Text

/-! ## Parts between minus signs -/

/-- Bytes that do not go on with a minus sign that has begun before them. -/
def GoesOnAfresh (t : List UInt8) : Prop := ∀ c ∈ t.head?, c ∉ minusSign.tail

theorem goesOnAfresh_nil : GoesOnAfresh [] := fun _ hc => nomatch hc

theorem goesOnAfresh_minusSign_append (t : List UInt8) : GoesOnAfresh (minusSign ++ t) := by
  intro c hc
  obtain rfl : 0xE2 = c := Option.some.inj hc
  decide

theorem goesOnAfresh_hyphen_cons (t : List UInt8) : GoesOnAfresh (0x2D :: t) := by
  intro c hc
  obtain rfl : 0x2D = c := Option.some.inj hc
  decide

/-- A minus sign that starts in a part ends in it. -/
theorem not_isPrefix_append {part t : List UInt8} (hne : part ≠ [])
    (hpart : ¬minusSign <+: part) (ht : GoesOnAfresh t) : ¬minusSign <+: part ++ t := by
  intro h
  obtain hwithin | ⟨u, hu⟩ := List.prefix_or_prefix_of_prefix h (List.prefix_append part t)
  · exact hpart hwithin
  · -- The part ends within the sign, so that `t` would go on with it.
    rw [← hu, List.prefix_append_right_inj] at h
    cases u with
    | nil => exact hpart (by rw [← hu, List.append_nil])
    | cons c u =>
      have hhead : c ∈ t.head? := by
        obtain ⟨v, rfl⟩ := h
        rfl
      refine ht c hhead ?_
      rw [← hu, List.tail_append_of_ne_nil hne]
      exact List.mem_append_right _ List.mem_cons_self

theorem not_isInfix_append {part t : List UInt8} (hpart : ¬minusSign <:+: part)
    (hrest : ¬minusSign <:+: t) (ht : GoesOnAfresh t) : ¬minusSign <:+: part ++ t := by
  induction part with
  | nil => exact hrest
  | cons b part ih =>
    rw [List.infix_cons_iff, not_or] at hpart
    rw [List.cons_append, List.infix_cons_iff, not_or]
    exact ⟨not_isPrefix_append (List.cons_ne_nil b part) hpart.1 ht, ih hpart.2⟩

/-! ## From left to right -/

theorem hyphenatedBytes_minusSign_append (t : List UInt8) :
    hyphenatedBytes (minusSign ++ t) = 0x2D :: hyphenatedBytes t := rfl

theorem hyphenatedBytes_cons {b : UInt8} {t : List UInt8} (h : ¬minusSign <+: b :: t) :
    hyphenatedBytes (b :: t) = b :: hyphenatedBytes t := by
  conv_lhs => unfold hyphenatedBytes
  split
  next rest heq => exact absurd ⟨rest, heq.symm⟩ h
  next heq => simp_all
  next heq => simp_all

theorem hyphenatedBytes_part_append {part t : List UInt8} (hpart : ¬minusSign <:+: part)
    (ht : GoesOnAfresh t) : hyphenatedBytes (part ++ t) = part ++ hyphenatedBytes t := by
  induction part with
  | nil => rfl
  | cons b part ih =>
    rw [List.infix_cons_iff, not_or] at hpart
    have hfirst : ¬minusSign <+: b :: (part ++ t) :=
      not_isPrefix_append (List.cons_ne_nil b part) hpart.1 ht
    rw [List.cons_append, hyphenatedBytes_cons hfirst, ih hpart.2, List.cons_append]

theorem hyphenatedBytes_part {part : List UInt8} (hpart : ¬minusSign <:+: part) :
    hyphenatedBytes part = part := by
  have h := hyphenatedBytes_part_append hpart goesOnAfresh_nil
  rwa [hyphenatedBytes, List.append_nil] at h

/-- `result` is `bytes` with a hyphen in the place of each minus sign: the same parts, none of which
holds a minus sign, are joined by minus signs in one and by hyphens in the other. -/
def IsHyphenated (bytes result : List UInt8) : Prop :=
  ∃ parts, (∀ part ∈ parts, ¬minusSign <:+: part) ∧
    bytes = minusSign.intercalate parts ∧ result = [0x2D].intercalate parts

theorem hyphenatedBytes_intercalate {parts : List (List UInt8)}
    (h : ∀ part ∈ parts, ¬minusSign <:+: part) :
    hyphenatedBytes (minusSign.intercalate parts) = [0x2D].intercalate parts := by
  induction parts with
  | nil => rfl
  | cons part parts ih =>
    obtain ⟨hpart, hparts⟩ := List.forall_mem_cons.mp h
    cases parts with
    | nil => rw [List.intercalate_singleton, List.intercalate_singleton, hyphenatedBytes_part hpart]
    | cons next parts =>
      rw [List.intercalate_cons_cons, List.intercalate_cons_cons, List.append_assoc,
        hyphenatedBytes_part_append hpart (goesOnAfresh_minusSign_append _),
        hyphenatedBytes_minusSign_append, ih hparts, List.append_assoc, List.singleton_append]

/-- Any bytes come apart at their minus signs. -/
theorem exists_parts (bytes : List UInt8) : ∃ part parts,
    (∀ p ∈ part :: parts, ¬minusSign <:+: p) ∧ bytes = minusSign.intercalate (part :: parts) := by
  induction bytes using hyphenatedBytes.induct with
  | case1 rest ih =>
    obtain ⟨part, parts, h, rfl⟩ := ih
    exact ⟨[], part :: parts, List.forall_mem_cons.mpr ⟨by decide, h⟩, rfl⟩
  | case2 b rest hb ih =>
    obtain ⟨part, parts, h, hrest⟩ := ih
    obtain ⟨hpart, hparts⟩ := List.forall_mem_cons.mp h
    have hbytes : b :: rest = minusSign.intercalate ((b :: part) :: parts) := by
      rw [hrest]
      cases parts <;> rfl
    have hfirst : ¬minusSign <+: b :: part := by
      rintro ⟨u, hu⟩
      obtain ⟨rfl, rfl⟩ := List.cons.inj hu
      cases parts <;> exact hb _ rfl hrest
    refine ⟨b :: part, parts, List.forall_mem_cons.mpr ⟨?_, hparts⟩, hbytes⟩
    rw [List.infix_cons_iff, not_or]
    exact ⟨hfirst, hpart⟩
  | case3 => exact ⟨[], [], List.forall_mem_singleton.mpr (by decide), rfl⟩

theorem isHyphenated_hyphenatedBytes (bytes : List UInt8) :
    IsHyphenated bytes (hyphenatedBytes bytes) := by
  obtain ⟨part, parts, h, rfl⟩ := exists_parts bytes
  exact ⟨part :: parts, h, rfl, hyphenatedBytes_intercalate h⟩

/-- The result is determined by the bytes. -/
theorem isHyphenated_iff {bytes result : List UInt8} :
    IsHyphenated bytes result ↔ result = hyphenatedBytes bytes := by
  constructor
  · rintro ⟨parts, h, rfl, rfl⟩
    exact (hyphenatedBytes_intercalate h).symm
  · rintro rfl
    exact isHyphenated_hyphenatedBytes bytes

theorem not_isInfix_intercalate {parts : List (List UInt8)}
    (h : ∀ part ∈ parts, ¬minusSign <:+: part) : ¬minusSign <:+: [0x2D].intercalate parts := by
  induction parts with
  | nil => decide
  | cons part parts ih =>
    obtain ⟨hpart, hparts⟩ := List.forall_mem_cons.mp h
    cases parts with
    | nil => rwa [List.intercalate_singleton]
    | cons next parts =>
      have hrest : ¬minusSign <:+: 0x2D :: [0x2D].intercalate (next :: parts) := by
        rw [List.infix_cons_iff, not_or, minusSign, List.cons_prefix_cons]
        exact ⟨fun h => absurd h.1 (by decide), ih hparts⟩
      rw [List.intercalate_cons_cons, List.append_assoc, List.singleton_append]
      exact not_isInfix_append hpart hrest (goesOnAfresh_hyphen_cons _)

/-- No minus sign is left, and none arises from what stood around one. -/
theorem not_isInfix_hyphenatedBytes (bytes : List UInt8) :
    ¬minusSign <:+: hyphenatedBytes bytes := by
  obtain ⟨part, parts, h, rfl⟩ := exists_parts bytes
  rw [hyphenatedBytes_intercalate h]
  exact not_isInfix_intercalate h

/-! ## Minus signs in UTF-8 -/

theorem utf8EncodeChar_minus : String.utf8EncodeChar '\u2212' = minusSign := rfl

/-- No byte of a character but the first can begin a minus sign. -/
theorem exists_utf8EncodeChar_eq (c : Char) :
    ∃ b t, String.utf8EncodeChar c = b :: t ∧ 0xE2 ∉ t := by
  have hcontinued : ∀ n : Nat, 0xE2 ≠ UInt8.ofNat (n % 64 + 128) := by
    intro n h
    have hn : 226 = (n % 64 + 128) % 2 ^ 8 := congrArg UInt8.toNat h
    omega
  simp only [String.utf8EncodeChar]
  split_ifs <;> refine ⟨_, _, rfl, ?_⟩ <;>
    simp only [List.mem_cons, hcontinued, List.not_mem_nil, or_self, not_false_eq_true]

/-- Where one character starts, no other does. -/
theorem eq_of_utf8EncodeChar_isPrefix {c d : Char} {t : List UInt8}
    (h : String.utf8EncodeChar c <+: String.utf8EncodeChar d ++ t) : c = d := by
  obtain ⟨u, hu⟩ := h
  have hc := @ByteArray.utf8DecodeChar?_utf8EncodeChar_append u.toByteArray c
  have hd := @ByteArray.utf8DecodeChar?_utf8EncodeChar_append t.toByteArray d
  rw [← List.toByteArray_append, hu, List.toByteArray_append, hd] at hc
  exact (Option.some.inj hc).symm

theorem hyphenatedBytes_append_of_not_mem {s : List UInt8} (h : 0xE2 ∉ s) (t : List UInt8) :
    hyphenatedBytes (s ++ t) = s ++ hyphenatedBytes t := by
  induction s with
  | nil => rfl
  | cons b s ih =>
    rw [List.mem_cons, not_or] at h
    have hfirst : ¬minusSign <+: b :: (s ++ t) := fun hminus =>
      h.1 (List.cons_prefix_cons.mp hminus).1
    rw [List.cons_append, hyphenatedBytes_cons hfirst, ih h.2, List.cons_append]

theorem hyphenatedBytes_utf8EncodeChar_append {c : Char} (hc : c ≠ '\u2212') (t : List UInt8) :
    hyphenatedBytes (String.utf8EncodeChar c ++ t) =
      String.utf8EncodeChar c ++ hyphenatedBytes t := by
  have hfirst : ¬minusSign <+: String.utf8EncodeChar c ++ t := by
    rw [← utf8EncodeChar_minus]
    exact fun hminus => hc (eq_of_utf8EncodeChar_isPrefix hminus).symm
  obtain ⟨b, s, hb, hs⟩ := exists_utf8EncodeChar_eq c
  rw [hb, List.cons_append] at hfirst ⊢
  rw [hyphenatedBytes_cons hfirst, hyphenatedBytes_append_of_not_mem hs, List.cons_append]

theorem hyphenatedBytes_utf8 (s : List Char) :
    hyphenatedBytes (s.flatMap String.utf8EncodeChar) =
      (hyphenated s).flatMap String.utf8EncodeChar := by
  unfold hyphenated
  induction s with
  | nil => rfl
  | cons c s ih =>
    rw [List.map_cons, List.flatMap_cons, List.flatMap_cons, ← ih]
    by_cases hc : c = '\u2212'
    · rw [if_pos hc, hc, utf8EncodeChar_minus, hyphenatedBytes_minusSign_append]
      rfl
    · rw [if_neg hc, hyphenatedBytes_utf8EncodeChar_append hc]

end LineChart.Text
