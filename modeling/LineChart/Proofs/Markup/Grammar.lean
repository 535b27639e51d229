import Mathlib.Data.List.Basic
import LineChart.Markup.Grammar
import LineChart.Proofs.Markup.Entity
import LineChart.Proofs.Text.Span

namespace LineChart.Markup.Grammar

open Text

/-! ## Characters -/

instance (s : List Char) : Decidable (OnlyChars s) :=
  decidable_of_iff (s.all isChar) List.all_eq_true

instance (s : List Char) : Decidable (IsSpaces s) :=
  decidable_of_iff (s.all isSpace) List.all_eq_true

theorem toNat_of_isSpace {c : Char} (h : isSpace c) :
    c.toNat = 0x9 ∨ c.toNat = 0xA ∨ c.toNat = 0xD ∨ c.toNat = 0x20 := by
  simp [isSpace, inRanges] at h
  omega

theorem isNamePart_eq_false_of_isSpace {c : Char} (h : isSpace c) : isNamePart c = false := by
  have hc := toNat_of_isSpace h
  simp [isNamePart, isNameStart, nameStartRanges, inRanges]
  omega

theorem isNamePart_of_isNameStart {c : Char} (h : isNameStart c) : isNamePart c := by
  rw [isNamePart, h, Bool.true_or]

theorem isSpace_eq_false_of_isNamePart {c : Char} (h : isNamePart c) : isSpace c = false := by
  cases hc : isSpace c
  · rfl
  · rw [isNamePart_eq_false_of_isSpace hc] at h
    exact absurd h Bool.false_ne_true

/-! ## One reading

What a production matches at the start of a text is determined, and so is what is left. -/

instance (name : String) : Decidable (IsName name) :=
  decidable_of_iff (name.toList.head?.any isNameStart ∧ name.toList.tail.all isNamePart) (by
    rw [IsName, List.all_eq_true]
    cases name.toList with
    | nil => simp
    | cons c rest => simp)

theorem IsName.isNamePart {name : String} (h : IsName name) : ∀ c ∈ name.toList, isNamePart c := by
  obtain ⟨c, rest, hname, hc, hrest⟩ := h
  intro d hd
  rcases List.mem_cons.mp (hname ▸ hd) with rfl | hd
  · exact isNamePart_of_isNameStart hc
  · exact hrest d hd

theorem IsName.unique {name name' : String} (h : IsName name) (h' : IsName name')
    {t t' : List Char} (ht : Halts Grammar.isNamePart t) (ht' : Halts Grammar.isNamePart t')
    (heq : name.toList ++ t = name'.toList ++ t') : name = name' ∧ t = t' := by
  obtain ⟨hname, hrest⟩ := append_inj_of_halts h.isNamePart h'.isNamePart ht ht' heq
  exact ⟨String.toList_inj.mp hname, hrest⟩

theorem IsSpaces.unique {gap gap' : List Char} (h : IsSpaces gap) (h' : IsSpaces gap')
    {t t' : List Char} (ht : Halts isSpace t) (ht' : Halts isSpace t')
    (heq : gap ++ t = gap' ++ t') : t = t' := (append_inj_of_halts h h' ht ht' heq).2

theorem unescape_entity {c : Char} {image : List Char} (h : (c, image) ∈ entities)
    (t : List Char) : unescape (image ++ t) = c :: unescape t := by
  have hcases : (c, image) = ('&', "&amp;".toList) ∨ (c, image) = ('<', "&lt;".toList) ∨
      (c, image) = ('>', "&gt;".toList) ∨ (c, image) = ('"', "&quot;".toList) ∨
      (c, image) = ('\'', "&apos;".toList) := by
    simpa [entities] using h
  rcases hcases with h | h | h | h | h <;>
  · obtain ⟨rfl, rfl⟩ := Prod.mk.inj h
    rfl

theorem asBlank_of_entity : ∀ entry ∈ entities, asBlank entry.1 = entry.1 := by decide

/-- A value is read off what stands between the quotes. -/
theorem IsValue.eq_map {quote : Char} {s value : List Char} (h : IsValue quote s value) :
    value = (unescape s).map asBlank := by
  induction h with
  | nil => rfl
  | plain hc hs ih =>
    rename_i c s value
    have hne : c ≠ '&' := fun heq => hc (heq ▸ by simp)
    rw [unescape_cons_of_ne hne, List.map_cons, ih]
  | entity hc hs ih => rw [unescape_entity hc, List.map_cons, asBlank_of_entity _ hc, ih]

/-- The quotes around a value are not within it. -/
theorem IsValue.ne_quote {quote : Char} (hquote : quote ∈ ['"', '\'']) {s value : List Char}
    (h : IsValue quote s value) : ∀ c ∈ s, c != quote := by
  have hentity : ∀ entry ∈ entities, '"' ∉ entry.2 ∧ '\'' ∉ entry.2 := by decide
  induction h with
  | nil => simp
  | plain hc hs ih =>
    intro d hd
    rcases List.mem_cons.mp hd with rfl | hd
    · simpa using fun heq : d = quote => hc (heq ▸ by simp)
    · exact ih d hd
  | entity hc hs ih =>
    intro d hd
    rcases List.mem_append.mp hd with hd | hd
    · rw [bne_iff_ne]
      rintro rfl
      rcases List.mem_pair.mp hquote with rfl | rfl
      · exact (hentity _ hc).1 hd
      · exact (hentity _ hc).2 hd
    · exact ih d hd

/-- What the inside of a tag ends with. -/
def tagEnds : List Char := ['/', '>']

theorem halts_of_mem_tagEnds {c : Char} (hc : c ∈ tagEnds) (t : List Char) :
    Halts isSpace (c :: t) ∧ Halts isNamePart (c :: t) := by
  rw [halts_cons, halts_cons]
  rcases List.mem_pair.mp hc with rfl | rfl <;> decide

theorem IsName.halts_isSpace {name : String} (h : IsName name) (t : List Char) :
    Halts isSpace (name.toList ++ t) := by
  obtain ⟨c, rest, hname, hc, -⟩ := h
  rw [hname]
  exact halts_cons.mpr (isSpace_eq_false_of_isNamePart (isNamePart_of_isNameStart hc))

theorem IsSpaces.halts_isNamePart {gap : List Char} (h : IsSpaces gap) : Halts isNamePart gap :=
  fun c hc => isNamePart_eq_false_of_isSpace (h c (List.mem_of_mem_head? hc))

theorem IsAttribute.unique {a a' : List Char} {entry entry' : String × String}
    (h : IsAttribute a entry) (h' : IsAttribute a' entry') {t t' : List Char}
    (heq : a ++ t = a' ++ t') : entry = entry' ∧ t = t' := by
  obtain ⟨-, hgap, hkey, hbefore, hafter, hquote, hraw⟩ := h
  obtain ⟨-, hgap', hkey', hbefore', hafter', hquote', hraw'⟩ := h'
  have hquotes : ∀ q ∈ ['"', '\''], isSpace q = false := by
    intro q hq
    rcases List.mem_pair.mp hq with rfl | rfl <;> decide
  have hequals : isSpace '=' = false ∧ isNamePart '=' = false := by decide
  have hkeyEnd : ∀ {gap : List Char}, IsSpaces gap → ∀ s, Halts isNamePart (gap ++ '=' :: s) :=
    fun hgap s => hgap.halts_isNamePart.append (halts_cons.mpr hequals.2)
  simp only [List.append_assoc, List.cons_append, List.nil_append] at heq
  have hkeys := hgap.unique hgap' (hkey.halts_isSpace _) (hkey'.halts_isSpace _) heq
  obtain ⟨rfl, hequal⟩ := hkey.unique hkey' (hkeyEnd hbefore _) (hkeyEnd hbefore' _) hkeys
  have hafterEqual := hbefore.unique hbefore' (halts_cons.mpr hequals.1)
    (halts_cons.mpr hequals.1) hequal
  have hopening := hafter.unique hafter' (halts_cons.mpr (hquotes _ hquote))
    (halts_cons.mpr (hquotes _ hquote')) (List.cons.inj hafterEqual).2
  obtain ⟨rfl, hraws⟩ := List.cons.inj hopening
  obtain ⟨rfl, hclosing⟩ := append_inj_of_halts (hraw.ne_quote hquote) (hraw'.ne_quote hquote)
    (by simp) (by simp) hraws
  have hvalue := String.toList_inj.mp (hraw.eq_map.trans hraw'.eq_map.symm)
  exact ⟨congrArg (Prod.mk _) hvalue, (List.cons.inj hclosing).2⟩

/-- No attribute follows where a tag ends. -/
theorem IsAttribute.append_ne {a gap : List Char} {entry : String × String} {c : Char}
    (h : IsAttribute a entry) (hgap : IsSpaces gap) (hc : c ∈ tagEnds) (t t' : List Char) :
    a ++ t ≠ gap ++ c :: t' := by
  obtain ⟨-, hgap', hkey, -, -, -, -⟩ := h
  intro heq
  simp only [List.append_assoc] at heq
  have hrest := hgap'.unique hgap (hkey.halts_isSpace _) (halts_of_mem_tagEnds hc t').1 heq
  obtain ⟨d, rest, hname, hd, -⟩ := hkey
  rw [hname] at hrest
  obtain ⟨rfl, -⟩ := List.cons.inj hrest
  have hpart := halts_cons.mp (halts_of_mem_tagEnds hc t').2
  rw [isNamePart_of_isNameStart hd] at hpart
  exact Bool.noConfusion hpart

theorem IsAttributes.unique {s s' gap gap' : List Char}
    {attributes attributes' : List (String × String)}
    (h : IsAttributes s attributes) (h' : IsAttributes s' attributes') (hgap : IsSpaces gap)
    (hgap' : IsSpaces gap') {c c' : Char} (hc : c ∈ tagEnds) (hc' : c' ∈ tagEnds)
    {t t' : List Char} (heq : s ++ (gap ++ c :: t) = s' ++ (gap' ++ c' :: t')) :
    attributes = attributes' ∧ c :: t = c' :: t' := by
  induction h generalizing s' attributes' with
  | nil =>
    cases h' with
    | nil =>
      exact ⟨rfl, hgap.unique hgap' (halts_of_mem_tagEnds hc t).1
        (halts_of_mem_tagEnds hc' t').1 heq⟩
    | cons ha' hs' =>
      rw [List.append_assoc] at heq
      exact absurd heq.symm (ha'.append_ne hgap hc _ t)
  | cons ha hs ih =>
    cases h' with
    | nil =>
      rw [List.append_assoc] at heq
      exact absurd heq (ha.append_ne hgap' hc' _ t')
    | cons ha' hs' =>
      rw [List.append_assoc, List.append_assoc] at heq
      obtain ⟨rfl, hrest⟩ := ha.unique ha' heq
      obtain ⟨rfl, hrest⟩ := ih hs' hrest
      exact ⟨rfl, hrest⟩

theorem IsAttributes.halts_isNamePart {s : List Char} {attributes : List (String × String)}
    (h : IsAttributes s attributes) : Halts isNamePart s := by
  cases h with
  | nil => exact halts_nil _
  | cons ha hs =>
    obtain ⟨hne, hgap, -, -, -, -, -⟩ := ha
    obtain ⟨c, gap, rfl⟩ := List.exists_cons_of_ne_nil hne
    exact halts_cons.mpr (isNamePart_eq_false_of_isSpace (hgap c List.mem_cons_self))

theorem IsTag.unique {s s' : List Char} {name name' : String}
    {attributes attributes' : List (String × String)} (h : IsTag s name attributes)
    (h' : IsTag s' name' attributes') {c c' : Char} (hc : c ∈ tagEnds) (hc' : c' ∈ tagEnds)
    {t t' : List Char} (heq : s ++ c :: t = s' ++ c' :: t') :
    name = name' ∧ attributes = attributes' ∧ c :: t = c' :: t' := by
  obtain ⟨hname, hs, -, hgap⟩ := h
  obtain ⟨hname', hs', -, hgap'⟩ := h'
  simp only [List.append_assoc] at heq
  have hend := hs.halts_isNamePart.append
    (hgap.halts_isNamePart.append (halts_of_mem_tagEnds hc t).2)
  have hend' := hs'.halts_isNamePart.append
    (hgap'.halts_isNamePart.append (halts_of_mem_tagEnds hc' t').2)
  obtain ⟨rfl, hrest⟩ := hname.unique hname' hend hend' heq
  exact ⟨rfl, hs.unique hs' hgap hgap' hc hc' hrest⟩

/-- What comes next in content: the end of it, white space or an element. -/
inductive Ahead where
  | ending
  | space
  | element
deriving DecidableEq

def ahead : List Char → Ahead
  | [] => .ending
  | '<' :: '/' :: _ => .ending
  | '<' :: _ => .element
  | _ => .space

theorem ahead_of_isSpace {c : Char} (hc : isSpace c) (t : List Char) : ahead (c :: t) = .space := by
  have hne : c ≠ '<' := by
    rintro rfl
    exact absurd hc (by decide)
  unfold ahead
  split <;> simp_all

theorem IsTag.ahead_eq {s : List Char} {name : String} {attributes : List (String × String)}
    (h : IsTag s name attributes) (t : List Char) : ahead ('<' :: (s ++ t)) = .element := by
  obtain ⟨⟨c, rest, hname, hc, -⟩, -, -, -⟩ := h
  have hne : c ≠ '/' := by
    rintro rfl
    exact absurd hc (by decide)
  rw [hname]
  unfold ahead
  split <;> simp_all

/-- Where content ends, the elements in it have been told. The next characters tell which rule
applies, and in elements the rules for tags tell the rest. -/
theorem IsContent.unique {s s' : List Char} {es es' : List Element} (h : IsContent s es)
    (h' : IsContent s' es') {t t' : List Char} (ht : ahead t = .ending) (ht' : ahead t' = .ending)
    (heq : s ++ t = s' ++ t') : es = es' ∧ t = t' := by
  have hahead := congrArg ahead heq
  have hslash : '/' ∈ tagEnds := by decide
  have hbracket : '>' ∈ tagEnds := by decide
  induction h generalizing s' es' t t' with
  | nil =>
    cases h' with
    | nil => exact ⟨rfl, heq⟩
    | blank hc' => simp [ht, ahead_of_isSpace hc'] at hahead
    | leaf htag' => simp [ht, htag'.ahead_eq] at hahead
    | nested htag' => simp [ht, htag'.ahead_eq] at hahead
  | blank hc hs ih =>
    cases h' with
    | nil => simp [ht', ahead_of_isSpace hc] at hahead
    | blank hc' hs' =>
      have hbehind := (List.cons.inj heq).2
      exact ih hs' ht ht' hbehind (congrArg ahead hbehind)
    | leaf htag' => simp [ahead_of_isSpace hc, htag'.ahead_eq] at hahead
    | nested htag' => simp [ahead_of_isSpace hc, htag'.ahead_eq] at hahead
  | leaf htag hs ih =>
    cases h' with
    | nil => simp [ht', htag.ahead_eq] at hahead
    | blank hc' => simp [ahead_of_isSpace hc', htag.ahead_eq] at hahead
    | leaf htag' hs' =>
      simp only [List.append_assoc, List.cons_append] at heq
      obtain ⟨rfl, rfl, hrest⟩ := htag.unique htag' hslash hslash (List.cons.inj heq).2
      have hbehind := (List.cons.inj (List.cons.inj hrest).2).2
      obtain ⟨rfl, hend⟩ := ih hs' ht ht' hbehind (congrArg ahead hbehind)
      exact ⟨rfl, hend⟩
    | nested htag' =>
      simp only [List.append_assoc, List.cons_append] at heq
      obtain ⟨-, -, hrest⟩ := htag.unique htag' hslash hbracket (List.cons.inj heq).2
      exact absurd (List.cons.inj hrest).1 (by decide)
  | nested htag hinner hgap hs ihinner ih =>
    cases h' with
    | nil => simp [ht', htag.ahead_eq] at hahead
    | blank hc' => simp [ahead_of_isSpace hc', htag.ahead_eq] at hahead
    | leaf htag' =>
      simp only [List.append_assoc, List.cons_append] at heq
      obtain ⟨-, -, hrest⟩ := htag.unique htag' hbracket hslash (List.cons.inj heq).2
      exact absurd (List.cons.inj hrest).1 (by decide)
    | nested htag' hinner' hgap' hs' =>
      simp only [List.append_assoc, List.cons_append] at heq
      obtain ⟨rfl, rfl, hrest⟩ := htag.unique htag' hbracket hbracket (List.cons.inj heq).2
      have hinside := (List.cons.inj hrest).2
      obtain ⟨rfl, hclosing⟩ := ihinner hinner' rfl rfl hinside (congrArg ahead hinside)
      simp only [List.cons.injEq, List.append_cancel_left_eq, true_and] at hclosing
      have hend := hgap.unique hgap' (halts_of_mem_tagEnds hbracket _).1
        (halts_of_mem_tagEnds hbracket _).1 hclosing
      have hbehind := (List.cons.inj hend).2
      obtain ⟨rfl, hend⟩ := ih hs' ht ht' hbehind (congrArg ahead hbehind)
      exact ⟨rfl, hend⟩

/-- A processor has one thing to report of a document. -/
theorem Reports.unique {document : String} {e e' : Element} (h : Reports document e)
    (h' : Reports document e') : e = e' := by
  obtain ⟨-, s, hs, hcontent⟩ := h
  obtain ⟨-, s', hs', hcontent'⟩ := h'
  have heq : s ++ [] = s' ++ [] := by simpa using hs.symm.trans hs'
  exact List.singleton_inj.mp (hcontent.unique hcontent' rfl rfl heq).1

end LineChart.Markup.Grammar
