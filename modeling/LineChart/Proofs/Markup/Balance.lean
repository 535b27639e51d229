import LineChart.Proofs.Markup.RoundTrip

namespace LineChart.Markup

open Text

/-! ## Scanning for tags -/

/-- What is known behind a part of a text: the names of the tags that are open, innermost first, and
the inside of the tag that the part ends in, if it ends in one. -/
structure Scan where
  opened : List (List Char)
  inside : Option (List Char)
deriving DecidableEq

/-- A tag closes the innermost one that is open, closes itself or is opened. -/
def turn (opened : List (List Char)) : List Char → Option (List (List Char))
  | '/' :: name =>
    match opened with
    | [] => none
    | top :: outer => if top = name then some outer else none
  | tag =>
    if tag.getLast? = some '/' then some opened else some (tag.takeWhile isNameChar :: opened)

/-- Between tags there are blanks alone, and no bracket stands within one. -/
def Scan.step (scan : Scan) (c : Char) : Option Scan :=
  match scan.inside with
  | none =>
    if c = '<' then some { scan with inside := some [] }
    else if isBlank c then some scan
    else none
  | some tag =>
    if c = '>' then (turn scan.opened tag).map fun opened => ⟨opened, none⟩
    else if c = '<' then none
    else some { scan with inside := some (tag ++ [c]) }

def Scan.run (scan : Scan) (s : List Char) : Option Scan := s.foldlM Scan.step scan

/-- Behind the declaration every tag that is opened is closed, the last one first. -/
def Balanced (text : String) : Prop :=
  (declaration.isPrefixOf? text.toList).bind (Scan.run ⟨[], none⟩) = some ⟨[], none⟩

instance (text : String) : Decidable (Balanced text) :=
  inferInstanceAs (Decidable (_ = _))

example : Balanced (String.ofList (declaration ++ "<a b=\"/\"><c/></a>".toList)) ∧
    ¬Balanced (String.ofList (declaration ++ "<a><c></a></c>".toList)) := by decide

namespace Scan

variable {opened : List (List Char)}

theorem run_append (scan : Scan) (s t : List Char) :
    scan.run (s ++ t) = (scan.run s).bind fun scan' => scan'.run t := List.foldlM_append

theorem run_cons_of_isBlank {c : Char} (hc : isBlank c) (t : List Char) :
    run ⟨opened, none⟩ (c :: t) = run ⟨opened, none⟩ t := by
  have hopen : c ≠ '<' := by
    rintro rfl
    exact absurd hc (by decide)
  have hstep : step ⟨opened, none⟩ c = some ⟨opened, none⟩ := by
    simp only [step, if_neg hopen, if_pos hc]
  rw [run, List.foldlM_cons, hstep]
  rfl

theorem run_margin (depth : Nat) (t : List Char) :
    run ⟨opened, none⟩ (margin depth ++ t) = run ⟨opened, none⟩ t := by
  rw [margin]
  induction 2 * depth with
  | zero => rfl
  | succ n ih =>
    rw [List.replicate_succ, List.cons_append, run_cons_of_isBlank (by decide), ih]

theorem run_inside {s : List Char} (hopen : '<' ∉ s) (hclose : '>' ∉ s) (tag : List Char) :
    run ⟨opened, some tag⟩ s = some ⟨opened, some (tag ++ s)⟩ := by
  induction s generalizing tag with
  | nil => rw [List.append_nil]; rfl
  | cons c s ih =>
    rw [List.mem_cons, not_or] at hopen hclose
    have hstep : step ⟨opened, some tag⟩ c = some ⟨opened, some (tag ++ [c])⟩ := by
      simp only [step, if_neg (Ne.symm hclose.1), if_neg (Ne.symm hopen.1)]
    rw [run, List.foldlM_cons, hstep]
    exact (ih hopen.2 hclose.2 (tag ++ [c])).trans (by rw [List.append_assoc]; rfl)

/-- A whole tag has its turn. -/
theorem run_tag {tag : List Char} (hopen : '<' ∉ tag) (hclose : '>' ∉ tag) (t : List Char) :
    run ⟨opened, none⟩ ('<' :: (tag ++ '>' :: t)) =
      (turn opened tag).bind fun opened' => run ⟨opened', none⟩ t := by
  have hstart : run ⟨opened, none⟩ ('<' :: (tag ++ '>' :: t)) =
      run ⟨opened, some []⟩ (tag ++ '>' :: t) := rfl
  rw [hstart, run_append, run_inside hopen hclose, Option.bind_some, List.nil_append]
  cases hturn : turn opened tag with
  | none => simp [run, step, hturn]
  | some opened' => simp [run, step, hturn]

end Scan

/-! ## Tags as they are written -/

theorem turn_of_halts {tag : List Char} (h : Halts (· == '/') tag) (opened : List (List Char)) :
    turn opened tag = if tag.getLast? = some '/' then some opened
      else some (tag.takeWhile isNameChar :: opened) := by
  unfold turn
  split
  · simp at h
  · rfl

/-- What stands between the brackets of an opening tag. -/
def tagInside (name : String) (attributes : List (String × String)) : List Char :=
  name.toList ++ attributes.flatMap attributeChars

section Tag

variable {name : String} {attributes : List (String × String)}

theorem not_mem_attributeChars {entry : String × String} (hkey : IsName entry.1) {c : Char}
    (hc : c = '<' ∨ c = '>') : c ∉ attributeChars entry := by
  have hreserved : isNameChar c = false := by rcases hc with rfl | rfl <;> decide
  have hframe : c ≠ ' ' ∧ c ≠ '=' ∧ c ≠ '"' := by rcases hc with rfl | rfl <;> decide
  have hname : c ∉ entry.1.toList := fun hm => by simp [hkey.2 c hm] at hreserved
  have hvalue : c ∉ escape entry.2.toList := by
    rcases hc with rfl | rfl <;> exact not_mem_escape (by decide) (by decide) _
  have heq := attributeChars_eq entry []
  rw [List.append_nil] at heq
  simp [heq, hframe, hname, hvalue]

/-- The brackets of a tag are the only ones. -/
theorem not_mem_tagInside (hname : IsName name) (ha : ∀ entry ∈ attributes, IsName entry.1) {c : Char}
    (hc : c = '<' ∨ c = '>') : c ∉ tagInside name attributes := by
  intro hmem
  rcases List.mem_append.mp hmem with hmem | hmem
  · have hreserved : isNameChar c = false := by rcases hc with rfl | rfl <;> decide
    simp [hname.2 c hmem] at hreserved
  · obtain ⟨entry, hentry, hmem⟩ := List.mem_flatMap.mp hmem
    exact not_mem_attributeChars (ha entry hentry) hc hmem

theorem halts_tagInside (hname : IsName name) (t : List Char) :
    Halts (· == '/') (tagInside name attributes ++ t) := by
  obtain ⟨d, u, hd⟩ := List.exists_cons_of_ne_nil hname.1
  have hslash : d ≠ '/' := by
    rintro rfl
    exact absurd (hname.2 '/' (hd ▸ List.mem_cons_self)) (by decide)
  rw [tagInside, hd]
  exact halts_cons.mpr (by simpa using hslash)

/-- An opening tag ends in a name or in a quote. -/
theorem getLast?_tagInside (hname : IsName name) :
    (tagInside name attributes).getLast? ≠ some '/' := by
  rcases List.eq_nil_or_concat attributes with rfl | ⟨entries, entry, rfl⟩
  · rw [tagInside, List.flatMap_nil, List.append_nil]
    intro hlast
    exact absurd (hname.2 '/' (List.mem_of_getLast? hlast)) (by decide)
  · obtain ⟨s, hs⟩ : ∃ s, attributeChars entry = s ++ ['"'] := ⟨_, rfl⟩
    simp [tagInside, hs]

theorem turn_closed (hname : IsName name) (opened : List (List Char)) :
    turn opened (tagInside name attributes ++ ['/']) = some opened := by
  rw [turn_of_halts (halts_tagInside hname ['/']), if_pos (by simp)]

theorem turn_open (hname : IsName name) (opened : List (List Char)) :
    turn opened (tagInside name attributes) = some (name.toList :: opened) := by
  have hhalts : Halts (· == '/') (tagInside name attributes) :=
    List.append_nil (tagInside name attributes) ▸ halts_tagInside hname []
  rw [turn_of_halts hhalts, if_neg (getLast?_tagInside hname), tagInside,
    takeWhile_append_of_halts hname.2 (halts_flatMap_attributeChars attributes)]

theorem turn_close (name : List Char) (opened : List (List Char)) :
    turn (name :: opened) ('/' :: name) = some opened := if_pos rfl

end Tag

/-! ## Elements -/

mutual

/-- Behind an element the same tags are open as before it. -/
theorem Scan.run_chars : ∀ e : Element, e.Clean → ∀ (depth : Nat) (opened : List (List Char)),
    run ⟨opened, none⟩ (e.chars depth) = some ⟨opened, none⟩
  | ⟨name, attributes, []⟩, ⟨hname, ha, _⟩, depth, opened => by
    have hchars : Element.chars depth ⟨name, attributes, []⟩ =
        margin depth ++ '<' :: (tagInside name attributes ++ ['/'] ++ '>' :: ['\n']) := by
      simp [Element.chars, tagChars, tagInside]
    have hbracket : ∀ {c}, c = '<' ∨ c = '>' → c ∉ tagInside name attributes ++ ['/'] := by
      intro c hc
      rw [List.mem_append, not_or]
      exact ⟨not_mem_tagInside hname ha hc, by rcases hc with rfl | rfl <;> decide⟩
    rw [hchars, run_margin, run_tag (hbracket (.inl rfl)) (hbracket (.inr rfl)), turn_closed hname,
      Option.bind_some, run_cons_of_isBlank (by decide)]
    rfl
  | ⟨name, attributes, e :: es⟩, ⟨hname, ha, hc⟩, depth, opened => by
    have hchars : Element.chars depth ⟨name, attributes, e :: es⟩ =
        margin depth ++ '<' :: (tagInside name attributes ++ '>' :: ('\n' ::
          (listChars (depth + 1) (e :: es) ++
            (margin depth ++ '<' :: ('/' :: name.toList ++ '>' :: ['\n']))))) := by
      simp [Element.chars, tagChars, tagInside]
    have hopen : ∀ {c}, c = '<' ∨ c = '>' → c ∉ tagInside name attributes :=
      not_mem_tagInside hname ha
    have hclose : ∀ {c}, c = '<' ∨ c = '>' → c ∉ '/' :: name.toList := by
      intro c hc
      rw [List.mem_cons, not_or]
      exact ⟨by rcases hc with rfl | rfl <;> decide,
        fun hm => hopen hc (List.mem_append_left _ hm)⟩
    -- the tag is open while the children are read, and closed behind them
    rw [hchars, run_margin, run_tag (hopen (.inl rfl)) (hopen (.inr rfl)), turn_open hname,
      Option.bind_some, run_cons_of_isBlank (by decide), run_append, run_listChars (e :: es) hc,
      Option.bind_some, run_margin, run_tag (hclose (.inl rfl)) (hclose (.inr rfl)), turn_close,
      Option.bind_some, run_cons_of_isBlank (by decide)]
    rfl

theorem Scan.run_listChars : ∀ es : List Element, AllClean es → ∀ (depth : Nat)
    (opened : List (List Char)), run ⟨opened, none⟩ (listChars depth es) = some ⟨opened, none⟩
  | [], _, _, _ => rfl
  | e :: es, ⟨he, hes⟩, depth, opened => by
    rw [listChars, run_append, run_chars e he, Option.bind_some, run_listChars es hes]

end

theorem Element.balanced_document {e : Element} (h : e.Clean) : Balanced e.document := by
  rw [Balanced, Element.document, String.toList_ofList,
    List.isPrefixOf?_eq_some_iff_append_eq.mpr rfl, Option.bind_some]
  exact Scan.run_chars e h 0 []

/-- A document can be read back as the element it was written from, so that no two elements have the
same one, and its tags are balanced. -/
theorem Element.document_invertible :
    (∀ e : Element, e.Clean → Element.ofDocument? e.document = some e ∧ Balanced e.document) ∧
    ∀ e e' : Element, e.Clean → e'.Clean → e.document = e'.document → e = e' := by
  refine ⟨fun e h => ⟨Element.ofDocument?_document h, Element.balanced_document h⟩, ?_⟩
  intro e e' h h' heq
  apply Option.some.inj
  rw [← Element.ofDocument?_document h, ← Element.ofDocument?_document h', heq]

/-- Values with brackets, quotes, entities and a whole tag in them, a key given twice, and a name
within itself. -/
def Element.entangled : Element :=
  ⟨"a", [("k", "\"/>\n&amp;</a><b c='d'>"), ("k", "")],
    [⟨"b", [], []⟩, ⟨"a", [("x", "/")], [⟨"c", [("v", "]]>")], []⟩]⟩]⟩

theorem Element.document_invertible_entangled :
    let swapped : Element := { entangled with attributes := entangled.attributes.reverse }
    entangled.Clean ∧ swapped.Clean ∧ Element.ofDocument? entangled.document = some entangled ∧
      Balanced entangled.document ∧ entangled.document ≠ swapped.document := by
  intro swapped
  have h : entangled.Clean := Element.clean_of_tags _ (by decide)
  have h' : swapped.Clean := Element.clean_of_tags _ (by decide)
  have hne : entangled ≠ swapped := fun heq =>
    absurd (congrArg Element.attributes heq) (by decide)
  obtain ⟨hread, hinjective⟩ := Element.document_invertible
  exact ⟨h, h', (hread _ h).1, (hread _ h).2, mt (hinjective _ _ h h') hne⟩

end LineChart.Markup
