import Mathlib.Data.List.DropRight
import Mathlib.Data.Option.Basic
import LineChart.Markup.Reader
import LineChart.Proofs.Markup.Entity
import LineChart.Proofs.Markup.Tags
import LineChart.Proofs.Text.Span

namespace LineChart.Markup

open Text

/-! ## Names and attributes -/

/-- A name that the reader takes as a whole. -/
def IsName (name : String) : Prop := name.toList ≠ [] ∧ ∀ c ∈ name.toList, isNameChar c

instance (name : String) : Decidable (IsName name) :=
  decidable_of_iff (name.toList ≠ [] ∧ name.toList.all isNameChar)
    (by rw [IsName, List.all_eq_true])

theorem isBlank_eq_false_of_isNameChar {c : Char} (h : isNameChar c) : isBlank c = false := by
  simpa using (Bool.and_eq_true_iff.mp h).1

theorem attributeChars_eq (entry : String × String) (t : List Char) :
    attributeChars entry ++ t =
      ' ' :: (entry.1.toList ++ '=' :: '"' :: (escape entry.2.toList ++ '"' :: t)) := by
  simp [attributeChars]

theorem readAttribute?_append {key : String} (hk : IsName key) (value : String) (t : List Char) :
    readAttribute? (key.toList ++ '=' :: '"' :: (escape value.toList ++ '"' :: t)) =
      some ((key, value), t) := by
  have hequal : Halts isNameChar ('=' :: '"' :: (escape value.toList ++ '"' :: t)) :=
    halts_cons.mpr (by decide)
  have hescaped : '"' ∉ escape value.toList := not_mem_escape (by decide) (by decide) _
  have hvalue : ∀ c ∈ escape value.toList, c != '"' := fun c hc => by
    simpa using ne_of_mem_of_not_mem hc hescaped
  have hquote : Halts (· != '"') ('"' :: t) := halts_cons.mpr (by decide)
  rw [readAttribute?, dropWhile_append_of_halts hk.2 hequal, takeWhile_append_of_halts hk.2 hequal]
  simp only [dropWhile_append_of_halts hvalue hquote, takeWhile_append_of_halts hvalue hquote,
    if_neg hk.1, unescape_escape, String.ofList_toList]

/-- Attributes are read up to a character that neither a blank nor a name starts with. -/
theorem readAttributes?_append {attributes : List (String × String)}
    (ha : ∀ entry ∈ attributes, IsName entry.1) {c : Char} (hb : isBlank c = false)
    (hn : isNameChar c = false) (t : List Char) {fuel : Nat} (hf : attributes.length < fuel) :
    readAttributes? fuel (attributes.flatMap attributeChars ++ c :: t) =
      some (attributes, c :: t) := by
  induction attributes generalizing fuel with
  | nil =>
    obtain ⟨fuel, rfl⟩ := Nat.exists_eq_add_one_of_ne_zero (Nat.ne_of_gt hf)
    have hskip : skipBlanks (c :: t) = c :: t := dropWhile_of_halts (halts_cons.mpr hb)
    rw [List.flatMap_nil, List.nil_append, readAttributes?, hskip]
    simp [hn]
  | cons entry attributes ih =>
    obtain ⟨fuel, rfl⟩ := Nat.exists_eq_add_one_of_ne_zero (Nat.ne_of_gt (Nat.zero_lt_of_lt hf))
    have hentry := ha entry List.mem_cons_self
    have hrest := ih (fun e he => ha e (List.mem_cons_of_mem _ he))
      (by simpa using hf : attributes.length < fuel)
    have hread := readAttribute?_append hentry entry.2 (attributes.flatMap attributeChars ++ c :: t)
    -- the blank in front of the attribute is skipped, and its name follows
    obtain ⟨d, key, hd⟩ := List.exists_cons_of_ne_nil hentry.1
    have hname : isNameChar d := hentry.2 d (hd ▸ List.mem_cons_self)
    rw [hd, List.cons_append] at hread
    rw [List.flatMap_cons, List.append_assoc, attributeChars_eq, hd, List.cons_append,
      readAttributes?]
    have hskip : ∀ s, skipBlanks (' ' :: d :: s) = d :: s := fun s => by
      have hd' := isBlank_eq_false_of_isNameChar hname
      rw [skipBlanks, List.dropWhile_cons_of_pos (by decide)]
      exact dropWhile_of_halts (halts_cons.mpr hd')
    rw [hskip]
    simp only [hname, if_true, hread, Option.bind_eq_bind, Option.bind_some, hrest, Option.pure_def]

/-! ## Tags -/

theorem skipBlanks_margin (depth : Nat) {c : Char} (hc : isBlank c = false) (t : List Char) :
    skipBlanks (margin depth ++ c :: t) = c :: t := by
  refine dropWhile_append_of_halts ?_ (halts_cons.mpr hc)
  intro d hd
  rw [List.eq_of_mem_replicate hd]
  decide

theorem readElement?_skipBlanks (fuel : Nat) (s : List Char) :
    readElement? fuel (skipBlanks s) = readElement? fuel s := by
  have hskip : skipBlanks (skipBlanks s) = skipBlanks s := List.dropWhile_idempotent isBlank s
  cases fuel with
  | zero => rw [readElement?, readElement?]
  | succ fuel => rw [readElement?, readElement?, hskip]

theorem guard_name {name : String} (hname : IsName name) :
    (guard (name.toList ≠ []) : Option Unit) = some () := if_pos hname.1

theorem halts_flatMap_attributeChars (attributes : List (String × String)) :
    Halts isNameChar (attributes.flatMap attributeChars) := by
  cases attributes with
  | nil => exact halts_nil _
  | cons entry attributes =>
    rw [List.flatMap_cons, attributeChars_eq]
    exact halts_cons.mpr (by decide)

/-- The name of a tag ends at its attributes. -/
theorem span_name {name : String} (hname : IsName name) (attributes : List (String × String))
    {c : Char} (hn : isNameChar c = false) (t : List Char) :
    (name.toList ++ (attributes.flatMap attributeChars ++ c :: t)).takeWhile isNameChar =
        name.toList ∧
      (name.toList ++ (attributes.flatMap attributeChars ++ c :: t)).dropWhile isNameChar =
        attributes.flatMap attributeChars ++ c :: t := by
  have hhalt : Halts isNameChar (attributes.flatMap attributeChars ++ c :: t) :=
    (halts_flatMap_attributeChars attributes).append (halts_cons.mpr hn)
  exact ⟨takeWhile_append_of_halts hname.2 hhalt, dropWhile_append_of_halts hname.2 hhalt⟩

section Tag

variable {name : String} {attributes : List (String × String)} (hname : IsName name)
  (ha : ∀ entry ∈ attributes, IsName entry.1) {fuel : Nat} (hf : attributes.length < fuel)
include hname ha hf

theorem readElement?_closed (depth : Nat) (t : List Char) :
    readElement? (fuel + 1) (margin depth ++ (tagChars name attributes ++ '/' :: '>' :: t)) =
      some (⟨name, attributes, []⟩, t) := by
  have hspan := span_name hname attributes (c := '/') (by decide) ('>' :: t)
  have hread := readAttributes?_append ha (c := '/') (by decide) (by decide) ('>' :: t) hf
  rw [tagChars, List.cons_append, List.cons_append, List.append_assoc, readElement?,
    skipBlanks_margin depth (by decide)]
  simp only [hspan.1, hspan.2, hread, Option.bind_eq_bind, guard_name hname, Option.bind_some,
    String.ofList_toList]

theorem readElement?_open (depth : Nat) {t rest : List Char} {children : List Element}
    (hc : readChildren? fuel t = some (children, name.toList ++ '>' :: rest)) :
    readElement? (fuel + 1) (margin depth ++ (tagChars name attributes ++ '>' :: t)) =
      some (⟨name, attributes, children⟩, rest) := by
  have hspan := span_name hname attributes (c := '>') (by decide) t
  have hread := readAttributes?_append ha (c := '>') (by decide) (by decide) t hf
  have hclose : (name.toList ++ ['>']).isPrefixOf? (name.toList ++ '>' :: rest) = some rest :=
    List.isPrefixOf?_eq_some_iff_append_eq.mpr (by simp)
  rw [tagChars, List.cons_append, List.cons_append, List.append_assoc, readElement?,
    skipBlanks_margin depth (by decide)]
  simp only [hspan.1, hspan.2, hread, Option.bind_eq_bind, guard_name hname, Option.bind_some, hc,
    hclose, Option.pure_def, String.ofList_toList]

end Tag

theorem readChildren?_nil (fuel depth : Nat) (t : List Char) :
    readChildren? (fuel + 1) ('\n' :: (margin depth ++ '<' :: '/' :: t)) = some ([], t) := by
  have hskip : skipBlanks ('\n' :: (margin depth ++ '<' :: '/' :: t)) = '<' :: '/' :: t := by
    rw [skipBlanks, List.dropWhile_cons_of_pos (by decide)]
    exact skipBlanks_margin depth (by decide) _
  rw [readChildren?, hskip]
  rfl

theorem readChildren?_cons {fuel depth : Nat} {c : Char} (hc : c ≠ '/') {s rest t : List Char}
    {e : Element} {es : List Element}
    (he : readElement? fuel (margin depth ++ '<' :: c :: s) = some (e, rest))
    (hes : readChildren? fuel rest = some (es, t)) :
    readChildren? (fuel + 1) ('\n' :: (margin depth ++ '<' :: c :: s)) = some (e :: es, t) := by
  have hskip : skipBlanks ('\n' :: (margin depth ++ '<' :: c :: s)) = '<' :: c :: s := by
    rw [skipBlanks, List.dropWhile_cons_of_pos (by decide)]
    exact skipBlanks_margin depth (by decide) _
  rw [← readElement?_skipBlanks, skipBlanks_margin depth (by decide)] at he
  rw [readChildren?, hskip]
  split
  · next heq => exact absurd (List.cons.inj (List.cons.inj heq).2).1 hc
  · simp [he, hes]

/-! ## Elements -/

mutual

/-- Every name in the element can be read. -/
def Element.Clean : Element → Prop
  | ⟨name, attributes, children⟩ =>
    IsName name ∧ (∀ entry ∈ attributes, IsName entry.1) ∧ AllClean children

def AllClean : List Element → Prop
  | [] => True
  | e :: es => e.Clean ∧ AllClean es

end

mutual

theorem Element.clean_of_tags : ∀ e : Element,
    (∀ tag ∈ e.tags, IsName tag.1 ∧ ∀ entry ∈ tag.2, IsName entry.1) → e.Clean
  | ⟨name, attributes, children⟩, h => by
    rw [Element.tags, List.forall_mem_cons] at h
    exact ⟨h.1.1, h.1.2, allClean_of_tags children h.2⟩

theorem allClean_of_tags : ∀ es : List Element,
    (∀ tag ∈ listTags es, IsName tag.1 ∧ ∀ entry ∈ tag.2, IsName entry.1) → AllClean es
  | [], _ => trivial
  | e :: es, h => by
    rw [listTags, List.forall_mem_append] at h
    exact ⟨e.clean_of_tags h.1, allClean_of_tags es h.2⟩

end

/-- A clean element is written as a margin and a bracket before a name. -/
theorem Element.Clean.exists_chars_eq {e : Element} (h : e.Clean) (depth : Nat) :
    ∃ c s, e.chars depth = margin depth ++ '<' :: c :: s ∧ isNameChar c := by
  obtain ⟨name, attributes, children⟩ := e
  have hname : IsName name := h.1
  obtain ⟨c, s, hc⟩ := List.exists_cons_of_ne_nil hname.1
  obtain ⟨t, ht⟩ : ∃ t, Element.chars depth ⟨name, attributes, children⟩ =
      margin depth ++ tagChars name attributes ++ t := ⟨_, by rw [Element.chars]⟩
  refine ⟨c, s ++ (attributes.flatMap attributeChars ++ t), ?_, hname.2 c (hc ▸ List.mem_cons_self)⟩
  rw [ht, tagChars, hc]
  simp only [List.append_assoc, List.cons_append]

theorem length_le_flatMap_attributeChars (attributes : List (String × String)) :
    attributes.length ≤ (attributes.flatMap attributeChars).length := by
  induction attributes with
  | nil => simp
  | cons entry attributes ih =>
    have hentry := congrArg List.length (attributeChars_eq entry [])
    rw [List.append_nil] at hentry
    simp only [List.flatMap_cons, List.length_cons, List.length_append, hentry]
    omega

mutual

/-- The reader undoes the writer, given at least a step for every character. -/
theorem readElement?_chars : ∀ (e : Element), e.Clean → ∀ (depth : Nat) {fuel : Nat},
    (e.chars depth).length ≤ fuel → ∀ t : List Char,
      readElement? fuel (e.chars depth ++ t) = some (e, '\n' :: t)
  | ⟨name, attributes, []⟩, ⟨hname, ha, _⟩, depth, fuel, hf, t => by
    have hlength := length_le_flatMap_attributeChars attributes
    have hchars : Element.chars depth ⟨name, attributes, []⟩ ++ t =
        margin depth ++ (tagChars name attributes ++ '/' :: '>' :: '\n' :: t) := by
      simp [Element.chars]
    -- a step for the element, and the rest of its characters for the attributes
    have hsize := congrArg List.length hchars
    simp only [List.length_append, List.length_cons, tagChars] at hsize
    obtain ⟨fuel, rfl⟩ := Nat.exists_eq_add_one_of_ne_zero (show fuel ≠ 0 by omega)
    rw [hchars]
    exact readElement?_closed hname ha (by omega) depth _
  | ⟨name, attributes, e :: es⟩, ⟨hname, ha, hc⟩, depth, fuel, hf, t => by
    have hlength := length_le_flatMap_attributeChars attributes
    have hchars : Element.chars depth ⟨name, attributes, e :: es⟩ ++ t =
        margin depth ++ (tagChars name attributes ++ '>' :: '\n' ::
          (listChars (depth + 1) (e :: es) ++
            (margin depth ++ '<' :: '/' :: (name.toList ++ '>' :: '\n' :: t)))) := by
      simp [Element.chars]
    have hsize := congrArg List.length hchars
    simp only [List.length_append, List.length_cons, tagChars] at hsize
    obtain ⟨fuel, rfl⟩ := Nat.exists_eq_add_one_of_ne_zero (show fuel ≠ 0 by omega)
    rw [hchars]
    refine readElement?_open hname ha (by omega) depth ?_
    exact readChildren?_listChars (e :: es) hc (depth + 1) depth (by omega) _

theorem readChildren?_listChars : ∀ (es : List Element), AllClean es → ∀ (depth outer : Nat)
    {fuel : Nat}, (listChars depth es).length < fuel → ∀ t : List Char,
      readChildren? fuel ('\n' :: (listChars depth es ++ (margin outer ++ '<' :: '/' :: t))) =
        some (es, t)
  | [], _, depth, outer, fuel, hf, t => by
    obtain ⟨fuel, rfl⟩ := Nat.exists_eq_add_one_of_ne_zero (Nat.ne_of_gt (Nat.zero_lt_of_lt hf))
    rw [listChars]
    exact readChildren?_nil fuel outer t
  | e :: es, ⟨he, hes⟩, depth, outer, fuel, hf, t => by
    -- the first element starts with a name, so that no closing tag is seen before it
    obtain ⟨c, s, hchars, hc⟩ := he.exists_chars_eq depth
    have hsize := congrArg List.length hchars
    simp only [List.length_append, List.length_cons] at hsize
    rw [listChars, List.length_append] at hf
    obtain ⟨fuel, rfl⟩ := Nat.exists_eq_add_one_of_ne_zero (show fuel ≠ 0 by omega)
    have hread := readElement?_chars e he depth (show (e.chars depth).length ≤ fuel by omega)
      (listChars depth es ++ (margin outer ++ '<' :: '/' :: t))
    have hrest := readChildren?_listChars es hes depth outer
      (show (listChars depth es).length < fuel by omega) t
    rw [hchars, List.append_assoc, List.cons_append, List.cons_append] at hread
    rw [listChars, List.append_assoc, hchars, List.append_assoc, List.cons_append, List.cons_append]
    refine readChildren?_cons ?_ hread hrest
    rintro rfl
    exact absurd hc (by decide)

end

/-- A document is read back as the element it was written from. -/
theorem Element.ofDocument?_document {e : Element} (h : e.Clean) :
    Element.ofDocument? e.document = some e := by
  have hprefix : declaration.isPrefixOf? (declaration ++ e.chars 0) = some (e.chars 0) :=
    List.isPrefixOf?_eq_some_iff_append_eq.mpr rfl
  have hread := readElement?_chars e h 0 (Nat.le_add_right (e.chars 0).length 1) []
  have hend : (guard (skipBlanks ['\n'] = []) : Option Unit) = some () := rfl
  rw [List.append_nil] at hread
  rw [Element.ofDocument?, Element.document, String.toList_ofList, hprefix]
  simp only [Option.bind_eq_bind, Option.bind_some, hread, hend, Option.pure_def]

end LineChart.Markup
