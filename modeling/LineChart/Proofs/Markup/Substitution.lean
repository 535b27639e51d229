import Mathlib.Data.List.Basic
import LineChart.Proofs.Markup.Entity

namespace LineChart.Markup

/-! ## One replacement after the other, and all at once -/

/-- What a table gives for a character: its image, or the character itself. -/
def imageOf (table : List (Char × List Char)) (c : Char) : List Char := (table.lookup c).getD [c]

theorem imageOf_cons_self (c : Char) (image : List Char) (table : List (Char × List Char)) :
    imageOf ((c, image) :: table) c = image := by
  rw [imageOf, List.lookup_cons_self, Option.getD_some]

theorem imageOf_cons_of_ne {c d : Char} (h : c ≠ d) (image : List Char)
    (table : List (Char × List Char)) : imageOf ((d, image) :: table) c = imageOf table c := by
  rw [imageOf, List.lookup_cons, beq_eq_false_iff_ne.mpr h]
  rfl

theorem imageOf_cases (table : List (Char × List Char)) (c : Char) :
    (c, imageOf table c) ∈ table ∨ c ∉ table.map Prod.fst ∧ imageOf table c = [c] := by
  induction table with
  | nil => exact .inr ⟨List.not_mem_nil, rfl⟩
  | cons entry table ih =>
    obtain ⟨d, image⟩ := entry
    by_cases hd : c = d
    · rw [hd, imageOf_cons_self]
      exact .inl List.mem_cons_self
    · rw [imageOf_cons_of_ne hd]
      rcases ih with hmem | ⟨hkeys, hself⟩
      · exact .inl (List.mem_cons_of_mem _ hmem)
      · exact .inr ⟨List.not_mem_cons_of_ne_of_not_mem hd hkeys, hself⟩

theorem imageOf_of_not_mem {table : List (Char × List Char)} {c : Char}
    (h : c ∉ table.map Prod.fst) : imageOf table c = [c] := by
  rcases imageOf_cases table c with hmem | ⟨-, hself⟩
  · exact absurd (List.mem_map_of_mem hmem) h
  · exact hself

theorem flatMap_imageOf_of_not_mem {table : List (Char × List Char)} {s : List Char}
    (h : ∀ c ∈ s, c ∉ table.map Prod.fst) : s.flatMap (imageOf table) = s :=
  (List.flatMap_congr fun c hc => imageOf_of_not_mem (h c hc)).trans (List.flatMap_singleton' s)

/-- Where no image holds a character that is replaced after it, replacing one character after the other
is replacing all at once. -/
theorem replaceAll_eq_flatMap {table : List (Char × List Char)}
    (h : table.Pairwise fun earlier later => later.1 ∉ earlier.2) (s : List Char) :
    replaceAll table s = s.flatMap (imageOf table) := by
  induction table generalizing s with
  | nil => exact (List.flatMap_singleton' s).symm
  | cons entry table ih =>
    obtain ⟨d, image⟩ := entry
    obtain ⟨himage, htable⟩ := List.pairwise_cons.mp h
    have hkept : image.flatMap (imageOf table) = image :=
      flatMap_imageOf_of_not_mem fun c hc hkey => by
        obtain ⟨later, hlater, rfl⟩ := List.mem_map.mp hkey
        exact himage later hlater hc
    change replaceAll table (replaceChar d image s) = _
    rw [ih htable, replaceChar, List.flatMap_assoc]
    refine List.flatMap_congr fun c _ => ?_
    by_cases hc : c = d
    · rw [if_pos hc, hkept, hc, imageOf_cons_self]
    · rw [if_neg hc, List.flatMap_singleton, imageOf_cons_of_ne hc]

/-- In another order the ampersand of an entity is escaped once more. -/
example : replaceAll [('<', "&lt;".toList), ('&', "&amp;".toList)] ['<'] = "&amp;lt;".toList := by
  decide

theorem escape_eq_flatMap (s : List Char) : escape s = s.flatMap (imageOf entities) :=
  replaceAll_eq_flatMap (by decide) s

theorem escape_append (s t : List Char) : escape (s ++ t) = escape s ++ escape t :=
  replaceAll_append entities s t

/-! ## Ampersands -/

/-- An entity has its ampersand in front and no other. -/
theorem exists_of_mem_entities {c : Char} {image : List Char} (h : (c, image) ∈ entities) :
    ∃ rest, image = '&' :: rest ∧ '&' ∉ rest := by
  have hall : ∀ entry ∈ entities, entry.2 = '&' :: entry.2.tail ∧ '&' ∉ entry.2.tail := by decide
  exact ⟨image.tail, hall _ h⟩

theorem mem_entities_of_ampersand_mem {c : Char} (h : '&' ∈ imageOf entities c) :
    (c, imageOf entities c) ∈ entities := by
  rcases imageOf_cases entities c with hmem | ⟨hkey, hself⟩
  · exact hmem
  · rw [hself, List.mem_singleton] at h
    exact absurd (h ▸ by decide) hkey

/-- What is written from an ampersand on starts with an entity. -/
theorem exists_entity_isPrefix {s before after : List Char}
    (h : escape s = before ++ '&' :: after) : ∃ entry ∈ entities, entry.2 <+: '&' :: after := by
  rw [escape_eq_flatMap] at h
  induction s generalizing before with
  | nil => exact absurd h.symm (List.append_ne_nil_of_right_ne_nil _ (List.cons_ne_nil _ _))
  | cons c s ih =>
    rw [List.flatMap_cons, List.append_eq_append_iff] at h
    -- The ampersand stands behind what is written for `c`, or within it and then in front.
    rcases h with ⟨inside, hbefore, hrest⟩ | ⟨_ | ⟨d, inside⟩, himage, hafter⟩
    · exact ih hrest
    · exact @ih [] hafter.symm
    · obtain ⟨rfl, rfl⟩ := List.cons.inj hafter
      have hmem : (c, imageOf entities c) ∈ entities :=
        mem_entities_of_ampersand_mem (himage ▸ List.mem_append_right _ List.mem_cons_self)
      obtain ⟨rest, hrest, hnone⟩ := exists_of_mem_entities hmem
      rw [himage] at hmem hrest
      cases before with
      | nil => exact ⟨_, hmem, List.prefix_append ('&' :: inside) _⟩
      | cons b before =>
        rw [← (List.cons.inj hrest).2] at hnone
        exact absurd (List.mem_append_right _ List.mem_cons_self) hnone

/-- Escaping is done character by character, leaves no special character but the ampersands of
entities, and is undone by one reading of the entities, also where the text itself holds some. -/
theorem escape_simultaneous (s t : List Char) :
    escape s = s.flatMap (imageOf entities) ∧
    escape (s ++ t) = escape s ++ escape t ∧
    (∀ c ∈ ['<', '>', '"', '\''], c ∉ escape s) ∧
    (∀ before after, escape s = before ++ '&' :: after →
      ∃ entry ∈ entities, entry.2 <+: '&' :: after) ∧
    unescape (escape s) = s := by
  refine ⟨escape_eq_flatMap s, escape_append s t, fun c hc => ?_,
    fun _ _ h => exists_entity_isPrefix h, unescape_escape s⟩
  simp only [List.mem_cons, List.not_mem_nil, or_false] at hc
  rcases hc with rfl | rfl | rfl | rfl <;> exact not_mem_escape (by decide) (by decide) s

/-- The text holds what an escaped text would hold, and it is read back as it was. -/
theorem escape_simultaneous_nested :
    let s := "<&amp;lt;".toList
    ('<' ∈ ['<', '>', '"', '\''] ∧ '<' ∉ escape s) ∧
    (escape s = "&lt;".toList ++ '&' :: "amp;amp;lt;".toList ∧
      ∃ entry ∈ entities, entry.2 <+: '&' :: "amp;amp;lt;".toList) ∧
    unescape "&lt;&amp;amp;lt;".toList = s := by
  intro s
  obtain ⟨-, -, hspecial, hampersand, hread⟩ := escape_simultaneous s []
  have hescape : escape s = "&lt;".toList ++ '&' :: "amp;amp;lt;".toList := by decide
  have hmem : '<' ∈ ['<', '>', '"', '\''] := List.mem_cons_self
  rw [hescape] at hread
  exact ⟨⟨hmem, hspecial _ hmem⟩, ⟨hescape, hampersand _ _ hescape⟩, hread⟩

end LineChart.Markup
