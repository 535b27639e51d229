import LineChart.Proofs.Markup.Grammar
import LineChart.Proofs.Markup.RoundTrip
import LineChart.Proofs.Markup.Tags

namespace LineChart.Markup.Grammar

open Text

/-- Names as the grammar has them, and no attribute twice. -/
structure ValidTag (tag : Tag) : Prop where
  name : IsName tag.1
  keys : ∀ entry ∈ tag.2, IsName entry.1
  nodup : (tag.2.map Prod.fst).Nodup

theorem ValidTag.mapValues {tag : Tag} (h : ValidTag tag) (f : String → String) :
    ValidTag (tag.mapValues f) := by
  refine ⟨h.name, fun entry he => ?_, ?_⟩
  · obtain ⟨entry', he', rfl⟩ := List.mem_map.mp he
    exact h.keys entry' he'
  · rw [Tag.mapValues, List.map_map]
    exact h.nodup

/-! ## Line ends -/

theorem normalizeLineEnds_cons {c : Char} (h : c ≠ '\r') (s : List Char) :
    normalizeLineEnds (c :: s) = c :: normalizeLineEnds s := by
  conv_lhs => unfold normalizeLineEnds
  split <;> simp_all

theorem normalizeLineEnds_append {s : List Char} (h : '\r' ∉ s) (t : List Char) :
    normalizeLineEnds (s ++ t) = s ++ normalizeLineEnds t := by
  induction s with
  | nil => rfl
  | cons c s ih =>
    rw [List.cons_append, normalizeLineEnds_cons (List.ne_of_not_mem_cons h).symm,
      ih (List.not_mem_of_not_mem_cons h), List.cons_append]

theorem return_not_mem_escape {c : Char} (h : c ≠ '\r') : '\r' ∉ escape [c] := by
  rcases plain_or_special c with hc | rfl | rfl | rfl | rfl | rfl
  · rw [escape_of_plain hc, List.mem_singleton]
    exact h.symm
  all_goals decide

theorem normalizeLineEnds_return {s : List Char} (h : s.head? ≠ some '\n') :
    normalizeLineEnds ('\r' :: s) = '\n' :: normalizeLineEnds s := by
  conv_lhs => unfold normalizeLineEnds
  split
  · next heq => simp [(List.cons.inj heq).2] at h
  · next heq => rw [(List.cons.inj heq).2]
  · next hc heq => exact absurd (List.cons.inj heq).1.symm hc
  · contradiction

theorem head?_escape_ne {s : List Char} (h : s.head? ≠ some '\n') (t : List Char) :
    (escape s ++ '"' :: t).head? ≠ some '\n' := by
  cases s with
  | nil => simp [escape, entities, replaceChar]
  | cons c s =>
    rw [escape_cons]
    rcases plain_or_special c with hc | rfl | rfl | rfl | rfl | rfl
    · rw [escape_of_plain hc]
      simpa using h
    all_goals exact fun heq => absurd (Option.some.inj heq) (by decide)

/-- No line end is escaped, and nothing that is escaped brings one. -/
theorem normalizeLineEnds_escape_append (v t : List Char) :
    normalizeLineEnds (escape v ++ '"' :: t) =
      escape (normalizeLineEnds v) ++ '"' :: normalizeLineEnds t := by
  have hfeed : escape ['\n'] = ['\n'] := escape_of_plain (by decide)
  have hreturn : escape ['\r'] = ['\r'] := escape_of_plain (by decide)
  fun_induction normalizeLineEnds v with
  | case1 s ih =>
    rw [escape_cons '\r', escape_cons '\n', escape_cons '\n', hreturn, hfeed]
    exact congrArg ('\n' :: ·) ih
  | case2 s hs ih =>
    have hhead : s.head? ≠ some '\n' := by
      intro heq
      obtain ⟨rest, rfl⟩ := List.head?_eq_some_iff.mp heq
      exact hs rest rfl
    rw [escape_cons '\r', escape_cons '\n', hreturn, hfeed]
    exact (normalizeLineEnds_return (head?_escape_ne hhead t)).trans (congrArg ('\n' :: ·) ih)
  | case3 c s _ hc ih =>
    rw [escape_cons c s, escape_cons c (normalizeLineEnds s), List.append_assoc, List.append_assoc,
      normalizeLineEnds_append (return_not_mem_escape hc), ih]
  | case4 => exact normalizeLineEnds_cons (by decide) t

def normalizedValue (v : String) : String := .ofList (normalizeLineEnds v.toList)

theorem IsName.return_not_mem {name : String} (h : IsName name) : '\r' ∉ name.toList :=
  fun hc => absurd (h.isNamePart _ hc) (by decide)

theorem normalizeLineEnds_attributeChars {entry : String × String} (h : IsName entry.1)
    (t : List Char) : normalizeLineEnds (attributeChars entry ++ t) =
      attributeChars (entry.map id normalizedValue) ++ normalizeLineEnds t := by
  have hvalue : (normalizedValue entry.2).toList = normalizeLineEnds entry.2.toList :=
    String.toList_ofList
  rw [attributeChars_eq, attributeChars_eq, normalizeLineEnds_cons (by decide),
    normalizeLineEnds_append h.return_not_mem, normalizeLineEnds_cons (by decide),
    normalizeLineEnds_cons (by decide), normalizeLineEnds_escape_append, ← hvalue]
  rfl

theorem normalizeLineEnds_flatMap_attributeChars {attributes : List (String × String)}
    (h : ∀ entry ∈ attributes, IsName entry.1) (t : List Char) :
    normalizeLineEnds (attributes.flatMap attributeChars ++ t) =
      (attributes.map (Prod.map id normalizedValue)).flatMap attributeChars ++
        normalizeLineEnds t := by
  induction attributes with
  | nil => rfl
  | cons entry attributes ih =>
    rw [List.flatMap_cons, List.append_assoc,
      normalizeLineEnds_attributeChars (h entry List.mem_cons_self),
      ih fun e he => h e (List.mem_cons_of_mem _ he), List.map_cons, List.flatMap_cons,
      List.append_assoc]

theorem normalizeLineEnds_tagChars {name : String} {attributes : List (String × String)}
    (h : ValidTag (name, attributes)) (t : List Char) :
    normalizeLineEnds (tagChars name attributes ++ t) =
      tagChars name (attributes.map (Prod.map id normalizedValue)) ++ normalizeLineEnds t := by
  rw [tagChars, tagChars, List.cons_append, List.cons_append, List.append_assoc, List.append_assoc,
    normalizeLineEnds_cons (by decide), normalizeLineEnds_append h.name.return_not_mem,
    normalizeLineEnds_flatMap_attributeChars h.keys]
  rfl

theorem return_not_mem_margin (depth : Nat) : '\r' ∉ margin depth :=
  fun hc => absurd (List.eq_of_mem_replicate hc) (by decide)

mutual

/-- Line ends are normalized within the values alone. -/
theorem normalizeLineEnds_chars : ∀ (e : Element), (∀ tag ∈ e.tags, ValidTag tag) →
    ∀ (depth : Nat) (t : List Char), normalizeLineEnds (e.chars depth ++ t) =
      (e.mapValues normalizedValue).chars depth ++ normalizeLineEnds t
  | ⟨name, attributes, []⟩, h, depth, t => by
    have htag : ValidTag (name, attributes) := h _ List.mem_cons_self
    have hend : '\r' ∉ "/>\n".toList := by decide
    simp only [Element.chars, Element.mapValues, listMapValues, List.isEmpty_nil, if_true,
      List.append_assoc]
    rw [normalizeLineEnds_append (return_not_mem_margin depth), normalizeLineEnds_tagChars htag,
      normalizeLineEnds_append hend]
  | ⟨name, attributes, e :: es⟩, h, depth, t => by
    have htag : ValidTag (name, attributes) := h _ List.mem_cons_self
    have hinner : ∀ tag ∈ listTags (e :: es), ValidTag tag :=
      fun tag hm => h tag (List.mem_cons_of_mem _ hm)
    have hopening : '\r' ∉ ">\n".toList := by decide
    have hclosing : '\r' ∉ "</".toList := by decide
    simp only [Element.chars, Element.mapValues, listMapValues, List.isEmpty_cons,
      Bool.false_eq_true, if_false, List.append_assoc]
    rw [normalizeLineEnds_append (return_not_mem_margin depth), normalizeLineEnds_tagChars htag,
      normalizeLineEnds_append hopening, normalizeLineEnds_listChars (e :: es) hinner,
      normalizeLineEnds_append (return_not_mem_margin depth), normalizeLineEnds_append hclosing,
      normalizeLineEnds_append htag.name.return_not_mem, normalizeLineEnds_append hopening,
      listMapValues]

theorem normalizeLineEnds_listChars : ∀ (es : List Element), (∀ tag ∈ listTags es, ValidTag tag) →
    ∀ (depth : Nat) (t : List Char), normalizeLineEnds (listChars depth es ++ t) =
      listChars depth (listMapValues normalizedValue es) ++ normalizeLineEnds t
  | [], _, _, _ => rfl
  | e :: es, h, depth, t => by
    have he : ∀ tag ∈ e.tags, ValidTag tag := fun tag hm => h tag (List.mem_append_left _ hm)
    have hes : ∀ tag ∈ listTags es, ValidTag tag := fun tag hm => h tag (List.mem_append_right _ hm)
    rw [listChars, listMapValues, listChars, List.append_assoc, List.append_assoc,
      normalizeLineEnds_chars e he, normalizeLineEnds_listChars es hes]

end

/-! ## What is written is in the grammar -/

theorem isValue_escape (v : List Char) : IsValue '"' (escape v) (v.map asBlank) := by
  induction v with
  | nil => exact .nil
  | cons c v ih =>
    rw [escape_cons, List.map_cons]
    rcases plain_or_special c with hc | rfl | rfl | rfl | rfl | rfl
    · have hsubset : ['<', '&', '"'] ⊆ entities.map Prod.fst := by decide
      have hplain : c ∉ ['<', '&', '"'] := fun hm => hc (hsubset hm)
      rw [escape_of_plain hc]
      exact .plain hplain ih
    all_goals exact .entity (by decide) ih

theorem isSpaces_nil : IsSpaces [] := by decide

/-- A value with its white space as a processor reports it. -/
def blankedValue (v : String) : String := .ofList (v.toList.map asBlank)

theorem isAttribute_attributeChars {key : String} (h : IsName key) (value : String) :
    IsAttribute (attributeChars (key, value)) (key, blankedValue value) := by
  have hraw : IsValue '"' (escape value.toList) (blankedValue value).toList := by
    rw [blankedValue, String.toList_ofList]
    exact isValue_escape value.toList
  have hattribute := IsAttribute.mk (List.cons_ne_nil ' ' []) (by decide) h isSpaces_nil
    isSpaces_nil (by decide) hraw
  simpa [attributeChars] using hattribute

theorem isAttributes_flatMap {attributes : List (String × String)}
    (h : ∀ entry ∈ attributes, IsName entry.1) :
    IsAttributes (attributes.flatMap attributeChars)
      (attributes.map (Prod.map id blankedValue)) := by
  induction attributes with
  | nil => exact .nil
  | cons entry attributes ih =>
    rw [List.flatMap_cons, List.map_cons]
    exact .cons (isAttribute_attributeChars (h entry List.mem_cons_self) entry.2)
      (ih fun e he => h e (List.mem_cons_of_mem _ he))

theorem exists_isTag {name : String} {attributes : List (String × String)}
    (h : ValidTag (name, attributes)) :
    ∃ tag, tagChars name attributes = '<' :: tag ∧
      IsTag tag name (attributes.map (Prod.map id blankedValue)) := by
  have hkeys : ((attributes.map (Prod.map id blankedValue)).map Prod.fst).Nodup := by
    rw [List.map_map]
    exact h.nodup
  have htag := IsTag.mk h.name (isAttributes_flatMap h.keys) hkeys isSpaces_nil
  rw [List.append_nil] at htag
  exact ⟨_, rfl, htag⟩

theorem IsContent.spaces {gap s : List Char} {es : List Element} (hgap : IsSpaces gap)
    (hs : IsContent s es) : IsContent (gap ++ s) es := by
  induction gap with
  | nil => exact hs
  | cons c gap ih =>
    exact .blank (hgap c List.mem_cons_self) (ih fun d hd => hgap d (List.mem_cons_of_mem _ hd))

theorem isSpaces_margin (depth : Nat) : IsSpaces (margin depth) := by
  intro c hc
  rw [List.eq_of_mem_replicate hc]
  decide

theorem isSpaces_lineFeed : IsSpaces ['\n'] := by decide

mutual

theorem isContent_chars : ∀ (e : Element), (∀ tag ∈ e.tags, ValidTag tag) → ∀ (depth : Nat)
    {rest : List Char} {es : List Element}, IsContent rest es →
      IsContent (e.chars depth ++ rest) (e.mapValues blankedValue :: es)
  | ⟨name, attributes, []⟩, h, depth, rest, es, hrest => by
    obtain ⟨tag, hchars, htag⟩ := exists_isTag (h _ List.mem_cons_self)
    have hleaf := IsContent.spaces (isSpaces_margin depth)
      (.leaf htag (IsContent.spaces isSpaces_lineFeed hrest))
    simpa [Element.chars, Element.mapValues, listMapValues, hchars] using hleaf
  | ⟨name, attributes, e :: es⟩, h, depth, rest, fs, hrest => by
    obtain ⟨tag, hchars, htag⟩ := exists_isTag (h _ List.mem_cons_self)
    have hinner : ∀ tag ∈ listTags (e :: es), ValidTag tag :=
      fun tag hm => h tag (List.mem_cons_of_mem _ hm)
    have hchildren := IsContent.spaces isSpaces_lineFeed (isContent_listChars (e :: es) hinner
      (depth + 1) (IsContent.spaces (isSpaces_margin depth) .nil))
    have hnested := IsContent.spaces (isSpaces_margin depth)
      (.nested htag hchildren isSpaces_nil (IsContent.spaces isSpaces_lineFeed hrest))
    simpa [Element.chars, Element.mapValues, hchars] using hnested

theorem isContent_listChars : ∀ (es : List Element), (∀ tag ∈ listTags es, ValidTag tag) →
    ∀ (depth : Nat) {rest : List Char} {fs : List Element}, IsContent rest fs →
      IsContent (listChars depth es ++ rest) (listMapValues blankedValue es ++ fs)
  | [], _, _, rest, fs, hrest => hrest
  | e :: es, h, depth, rest, fs, hrest => by
    have he : ∀ tag ∈ e.tags, ValidTag tag := fun tag hm => h tag (List.mem_append_left _ hm)
    have hes : ∀ tag ∈ listTags es, ValidTag tag := fun tag hm => h tag (List.mem_append_right _ hm)
    rw [listChars, listMapValues, List.append_assoc]
    exact isContent_chars e he depth (isContent_listChars es hes depth hrest)

end

/-! ## Characters -/

theorem onlyChars_append {s t : List Char} : OnlyChars (s ++ t) ↔ OnlyChars s ∧ OnlyChars t :=
  List.forall_mem_append

theorem onlyChars_escape (v : List Char) : OnlyChars (escape v) ↔ OnlyChars v := by
  induction v with
  | nil => rfl
  | cons c v ih =>
    have hsingle : OnlyChars (escape [c]) ↔ OnlyChars [c] := by
      rcases plain_or_special c with hc | rfl | rfl | rfl | rfl | rfl
      · rw [escape_of_plain hc]
      all_goals exact iff_of_true (by decide) (by decide)
    rw [escape_cons, onlyChars_append, hsingle, ih, ← onlyChars_append, List.singleton_append]

theorem isChar_of_isNamePart {c : Char} (h : isNamePart c) : isChar c := by
  simp [isNamePart, isNameStart, nameStartRanges, isChar, charRanges, inRanges] at h ⊢
  omega

theorem IsName.onlyChars {name : String} (h : IsName name) : OnlyChars name.toList :=
  fun c hc => isChar_of_isNamePart (h.isNamePart c hc)

theorem onlyChars_attributeChars {entry : String × String} (h : IsName entry.1) :
    OnlyChars (attributeChars entry) ↔ OnlyChars entry.2.toList := by
  have hequal : OnlyChars [' '] ∧ OnlyChars "=\"".toList ∧ OnlyChars ['"'] := by decide
  have hchars : attributeChars entry =
      [' '] ++ (entry.1.toList ++ ("=\"".toList ++ (escape entry.2.toList ++ ['"']))) := by
    simp [attributeChars]
  rw [hchars]
  simp only [onlyChars_append, onlyChars_escape, hequal, h.onlyChars, true_and, and_true]

/-- The values in a list of tags hold characters of documents alone. -/
def ValuesOnlyChars (tags : List Tag) : Prop :=
  ∀ tag ∈ tags, ∀ entry ∈ tag.2, OnlyChars entry.2.toList

theorem valuesOnlyChars_cons {tag : Tag} {tags : List Tag} :
    ValuesOnlyChars (tag :: tags) ↔
      (∀ entry ∈ tag.2, OnlyChars entry.2.toList) ∧ ValuesOnlyChars tags :=
  List.forall_mem_cons

theorem valuesOnlyChars_append {tags tags' : List Tag} :
    ValuesOnlyChars (tags ++ tags') ↔ ValuesOnlyChars tags ∧ ValuesOnlyChars tags' :=
  List.forall_mem_append

theorem onlyChars_tagChars {name : String} {attributes : List (String × String)}
    (h : ValidTag (name, attributes)) :
    OnlyChars (tagChars name attributes) ↔ ∀ entry ∈ attributes, OnlyChars entry.2.toList := by
  have hbracket : OnlyChars ['<'] := by decide
  have hattributes : OnlyChars (attributes.flatMap attributeChars) ↔
      ∀ entry ∈ attributes, OnlyChars (attributeChars entry) := List.forall_mem_flatMap
  have hchars : tagChars name attributes =
      ['<'] ++ (name.toList ++ attributes.flatMap attributeChars) := rfl
  rw [hchars, onlyChars_append, onlyChars_append, hattributes]
  simp only [hbracket, h.name.onlyChars, true_and]
  exact forall₂_congr fun entry he => onlyChars_attributeChars (h.keys entry he)

theorem onlyChars_margin (depth : Nat) : OnlyChars (margin depth) := by
  intro c hc
  rw [List.eq_of_mem_replicate hc]
  decide

mutual

/-- Everything but the values is made of characters of documents. -/
theorem onlyChars_chars : ∀ (e : Element), (∀ tag ∈ e.tags, ValidTag tag) → ∀ depth : Nat,
    OnlyChars (e.chars depth) ↔ ValuesOnlyChars e.tags
  | ⟨name, attributes, []⟩, h, depth => by
    have hend : OnlyChars "/>\n".toList := by decide
    have hnone : ValuesOnlyChars (listTags []) := fun _ hm => absurd hm List.not_mem_nil
    rw [Element.chars, List.isEmpty_nil, if_pos rfl, onlyChars_append, onlyChars_append,
      onlyChars_tagChars (h _ List.mem_cons_self), Element.tags, valuesOnlyChars_cons]
    simp only [onlyChars_margin, hend, hnone, true_and, and_true]
  | ⟨name, attributes, e :: es⟩, h, depth => by
    have htag : ValidTag (name, attributes) := h _ List.mem_cons_self
    have hinner := onlyChars_listChars (e :: es) (fun tag hm => h tag (List.mem_cons_of_mem _ hm))
      (depth + 1)
    have hopening : OnlyChars ">\n".toList ∧ OnlyChars "</".toList := by decide
    rw [Element.chars, List.isEmpty_cons, if_neg Bool.false_ne_true, Element.tags,
      valuesOnlyChars_cons]
    simp only [onlyChars_append, onlyChars_tagChars htag, onlyChars_margin, hopening, hinner,
      htag.name.onlyChars, true_and, and_true]

theorem onlyChars_listChars : ∀ (es : List Element), (∀ tag ∈ listTags es, ValidTag tag) →
    ∀ depth : Nat, OnlyChars (listChars depth es) ↔ ValuesOnlyChars (listTags es)
  | [], _, _ => by simp [listChars, listTags, OnlyChars, ValuesOnlyChars]
  | e :: es, h, depth => by
    rw [listChars, listTags, onlyChars_append, valuesOnlyChars_append,
      onlyChars_chars e (fun tag hm => h tag (List.mem_append_left _ hm)),
      onlyChars_listChars es fun tag hm => h tag (List.mem_append_right _ hm)]

end

/-! ## Documents -/

/-- What a processor reports of an attribute value that is written escaped. -/
def reportedValue (v : String) : String := blankedValue (normalizedValue v)

theorem map_asBlank_normalizeLineEnds {s : List Char} (h : '\n' ∉ s) :
    (normalizeLineEnds s).map asBlank = s.map asBlank := by
  have hreturn : asBlank '\n' = asBlank '\r' := by decide
  fun_induction normalizeLineEnds s with
  | case1 s ih => exact absurd (List.mem_cons_of_mem _ List.mem_cons_self) h
  | case2 s _ ih =>
    rw [List.map_cons, List.map_cons, ih (List.not_mem_of_not_mem_cons h), hreturn]
  | case3 c s _ _ ih => rw [List.map_cons, List.map_cons, ih (List.not_mem_of_not_mem_cons h)]
  | case4 => rfl

/-- Within a line only the white space itself is changed. -/
theorem reportedValue_of_not_mem {v : String} (h : '\n' ∉ v.toList) :
    reportedValue v = blankedValue v := by
  rw [reportedValue, blankedValue, normalizedValue, String.toList_ofList,
    map_asBlank_normalizeLineEnds h]
  rfl

theorem blankedValue_of_not_isSpace {v : String} (h : ∀ c ∈ v.toList, isSpace c = false) :
    blankedValue v = v := by
  have hmap : v.toList.map asBlank = v.toList :=
    (List.map_congr_left fun c hc => by simp [asBlank, h c hc]).trans (List.map_id _)
  rw [blankedValue, hmap, String.ofList_toList]

/-- A document that is written is well-formed as long as its values hold characters of documents
alone, and its elements are reported as they are but for the white space in their values. -/
theorem reports_document_iff {e : Element} (h : ∀ tag ∈ e.tags, ValidTag tag) (e' : Element) :
    Reports e.document e' ↔ ValuesOnlyChars e.tags ∧ e' = e.mapValues reportedValue := by
  have hdeclaration : OnlyChars declaration ∧ '\r' ∉ declaration := by decide
  have hchars : OnlyChars e.document.toList ↔ ValuesOnlyChars e.tags := by
    rw [Element.document, String.toList_ofList, onlyChars_append, onlyChars_chars e h]
    simp only [hdeclaration.1, true_and]
  have htags : ∀ tag ∈ (e.mapValues normalizedValue).tags, ValidTag tag := by
    intro tag hm
    rw [e.tags_mapValues] at hm
    obtain ⟨tag', hm', rfl⟩ := List.mem_map.mp hm
    exact (h tag' hm').mapValues normalizedValue
  have hread : normalizeLineEnds e.document.toList =
      declaration ++ (e.mapValues normalizedValue).chars 0 := by
    have hlines := normalizeLineEnds_chars e h 0 []
    rw [List.append_nil, normalizeLineEnds, List.append_nil] at hlines
    rw [Element.document, String.toList_ofList, normalizeLineEnds_append hdeclaration.2, hlines]
  have hcontent := isContent_chars (e.mapValues normalizedValue) htags 0 .nil
  rw [List.append_nil, e.mapValues_mapValues] at hcontent
  constructor
  · intro hreports
    have hvalues := hchars.mp hreports.1
    exact ⟨hvalues, hreports.unique ⟨hreports.1, _, hread, hcontent⟩⟩
  · rintro ⟨hvalues, rfl⟩
    exact ⟨hchars.mpr hvalues, _, hread, hcontent⟩

end LineChart.Markup.Grammar
