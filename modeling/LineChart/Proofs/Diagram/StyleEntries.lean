import LineChart.Diagram.Style
import LineChart.Proofs.Text.Span

/-! Styles as lists of entries: what is added to a style is read back from its text. -/

namespace LineChart

/-! ## Single entries -/

namespace StyleEntry

theorem ofChars_flag {name : List Char} (h : '=' ∉ name) : ofChars name = .flag name := by
  have hdrop : name.dropWhile (· != '=') = [] :=
    List.dropWhile_eq_nil_iff.mpr fun c hc => by simpa using ne_of_mem_of_not_mem hc h
  rw [ofChars, hdrop]

/-- Only the first equals sign divides an entry. -/
theorem ofChars_pair {key : List Char} (h : '=' ∉ key) (value : List Char) :
    ofChars (key ++ '=' :: value) = .pair key value := by
  have hkey : ∀ c ∈ key, (c != '=') = true := fun c hc => by simpa using ne_of_mem_of_not_mem hc h
  have hhalts : Halts (· != '=') ('=' :: value) := halts_cons.mpr (by simp)
  rw [ofChars, dropWhile_append_of_halts hkey hhalts]
  simp only [takeWhile_append_of_halts hkey hhalts]

end StyleEntry

/-! ## Entries of a text -/

def entriesOf (s : List Char) : List StyleEntry :=
  ((s.splitOn ';').filter (· ≠ [])).map StyleEntry.ofChars

theorem Style.entries_eq (s : Style) : s.entries = entriesOf s.text.toList := rfl

@[simp] theorem entriesOf_nil : entriesOf [] = [] := rfl

/-- No entry goes on beyond a separator. -/
theorem entriesOf_append_separator (s t : List Char) :
    entriesOf (s ++ ';' :: t) = entriesOf s ++ entriesOf t := by
  rw [entriesOf, List.splitOn_append_cons_self, List.filter_append, List.map_append]
  rfl

/-- A separator at the end divides nothing. -/
theorem entriesOf_concat_separator (s : List Char) : entriesOf (s ++ [';']) = entriesOf s := by
  rw [entriesOf_append_separator, entriesOf_nil, List.append_nil]

theorem entriesOf_of_not_mem {s : List Char} (hne : s ≠ []) (h : ';' ∉ s) :
    entriesOf s = [StyleEntry.ofChars s] := by
  rw [entriesOf, List.splitOn_eq_singleton h, List.filter_cons_of_pos (by simpa using hne)]
  rfl

namespace Style

/-! ## Additions -/

/-- What adds an entry to a style. -/
inductive Addition : Type 1 where
  | flag (name : String)
  | set {α : Type} [StyleValue α] (key : String) (value : α)

def add (s : Style) : Addition → Style
  | .flag name => s.flag name
  | @Addition.set _ _ key value => s.set key value

/-- A text that can stand as a keyword, or in front of an equals sign. -/
def IsKey (s : String) : Prop := s.toList ≠ [] ∧ ';' ∉ s.toList ∧ '=' ∉ s.toList

instance (s : String) : Decidable (IsKey s) := inferInstanceAs (Decidable (_ ∧ _))

namespace Addition

def entry : Addition → StyleEntry
  | flag name => .flag name.toList
  | set key value => .pair key.toList (StyleValue.text value).toList

/-- An addition with a proper keyword or key, and no separator in its value. -/
def IsReadable : Addition → Prop
  | flag name => IsKey name
  | set key value => IsKey key ∧ ';' ∉ (StyleValue.text value).toList

instance : DecidablePred IsReadable
  | flag _ => inferInstanceAs (Decidable (IsKey _))
  | set _ _ => inferInstanceAs (Decidable (_ ∧ _))

/-- The text of the entry, without the separator behind it. -/
def chars : Addition → List Char
  | flag name => name.toList
  | set key value => key.toList ++ '=' :: (StyleValue.text value).toList

variable {a : Addition}

theorem IsReadable.chars_ne_nil (h : a.IsReadable) : a.chars ≠ [] := by
  cases a with
  | flag name => exact h.1
  | set key value => simp [chars]

theorem IsReadable.separator_not_mem (h : a.IsReadable) : ';' ∉ a.chars := by
  cases a with
  | flag name => exact h.2.1
  | set key value =>
    obtain ⟨⟨-, hkey, -⟩, hvalue⟩ := h
    simp [chars, hkey, hvalue]

theorem IsReadable.ofChars_chars (h : a.IsReadable) : StyleEntry.ofChars a.chars = a.entry := by
  cases a with
  | flag name => exact StyleEntry.ofChars_flag h.2.2
  | set key value => exact StyleEntry.ofChars_pair h.1.2.2 _

end Addition

theorem toList_add (s : Style) (a : Addition) :
    (s.add a).text.toList = s.text.toList ++ (a.chars ++ [';']) := by
  cases a with
  | flag name => simp [add, Style.flag, Addition.chars]
  | set key value => simp [add, Style.set, Addition.chars]

/-- What is added to such a style begins a new entry. -/
def Terminated (s : Style) : Prop :=
  s.text.toList = [] ∨ ∃ front, s.text.toList = front ++ [';']

theorem terminated_add (s : Style) (a : Addition) : (s.add a).Terminated := by
  refine .inr ⟨s.text.toList ++ a.chars, ?_⟩
  rw [toList_add, List.append_assoc]

theorem Terminated.entriesOf_append {s : Style} (h : s.Terminated) (t : List Char) :
    entriesOf (s.text.toList ++ t) = s.entries ++ entriesOf t := by
  rw [entries_eq]
  rcases h with hnil | ⟨front, hfront⟩
  · rw [hnil]
    rfl
  · rw [hfront, List.append_assoc]
    calc entriesOf (front ++ ';' :: t) = entriesOf front ++ entriesOf t :=
          entriesOf_append_separator front t
      _ = entriesOf (front ++ [';']) ++ entriesOf t := by rw [entriesOf_concat_separator]

theorem entries_add {s : Style} (hs : s.Terminated) {a : Addition} (ha : a.IsReadable) :
    (s.add a).entries = s.entries ++ [a.entry] := by
  rw [entries_eq, toList_add, hs.entriesOf_append, entriesOf_concat_separator,
    entriesOf_of_not_mem ha.chars_ne_nil ha.separator_not_mem, ha.ofChars_chars]

theorem entries_foldl_add {s : Style} (hs : s.Terminated) {added : List Addition}
    (h : ∀ a ∈ added, a.IsReadable) :
    (added.foldl add s).entries = s.entries ++ added.map Addition.entry := by
  -- each addition leaves a style that the next one can be added to
  induction added generalizing s with
  | nil => simp
  | cons a added ih =>
    rw [List.forall_mem_cons] at h
    rw [List.foldl_cons, ih (s.terminated_add a) h.2, entries_add hs h.1, List.append_assoc]
    rfl

/-! ## The end of a style -/

theorem unterminated_cases (s : Style) :
    (s.text.toList.getLast? ≠ some ';' ∧ s.unterminated = s) ∨
      s.text = s.unterminated.text ++ ";" := by
  rw [unterminated]
  split
  · next hlast =>
    right
    obtain ⟨front, hfront⟩ := List.getLast?_eq_some_iff.mp hlast
    apply String.toList_inj.mp
    simp [hfront]
  · next hlast => exact .inl ⟨hlast, rfl⟩

theorem entries_unterminated (s : Style) : s.unterminated.entries = s.entries := by
  rcases s.unterminated_cases with ⟨-, h⟩ | h
  · rw [h]
  · rw [s.entries_eq, h, String.toList_append]
    exact (entriesOf_concat_separator _).symm

/-- The empty style and the styles of cells, but for that of the title. -/
inductive IsBase : Style → Prop
  | empty : IsBase empty
  | axis : IsBase axis
  | gridline : IsBase gridline
  | dataLine : IsBase dataLine
  | marker : IsBase marker
  | textBox (align : Align) (vertical : VerticalAlign) : IsBase (textBox align vertical)

theorem IsBase.terminated {s : Style} (h : s.IsBase) : s.Terminated := by
  cases h with
  | empty => exact .inl rfl
  | axis => exact terminated_add _ (.set "endSize" 8)
  | gridline => exact terminated_add _ (.set "dashed" 1)
  | dataLine => exact terminated_add _ (.set "strokeColor" Color.lineBlue)
  | marker => exact terminated_add _ (.set "labelBackgroundColor" Color.white)
  | textBox align vertical => exact terminated_add _ (.set "rounded" 0)

/-- The entries of a style are those that it began with and then those that were added, in the order
of the additions. Taking off the last separator takes nothing from them, and nothing else from the
text. -/
theorem entries_additions {start : Style} (hstart : start.IsBase) {added : List Addition}
    (hadded : ∀ a ∈ added, a.IsReadable) :
    (added.foldl add start).entries = start.entries ++ added.map Addition.entry ∧
      (added.foldl add start).unterminated.entries =
        start.entries ++ added.map Addition.entry ∧
      ∀ s : Style,
        ((s.text.toList.getLast? ≠ some ';' ∧ s.unterminated = s) ∨
          s.text = s.unterminated.text ++ ";") ∧
        s.unterminated.entries = s.entries := by
  have hentries := entries_foldl_add hstart.terminated hadded
  refine ⟨hentries, ?_, fun s => ⟨s.unterminated_cases, s.entries_unterminated⟩⟩
  rw [entries_unterminated, hentries]

/-- A key that is there already, a value with an equals sign and one without any text. -/
theorem entries_additions_marker :
    let added : List Addition :=
      [.flag "curved", .set "link" "a=b", .set "html" 0, .set "note" ""]
    marker.IsBase ∧ (∀ a ∈ added, a.IsReadable) ∧
      (marker.flag "curved" |>.set "link" "a=b" |>.set "html" 0
          |>.set "note" "").unterminated.entries =
        marker.entries ++ [.flag "curved".toList, .pair "link".toList "a=b".toList,
          .pair "html".toList "0".toList, .pair "note".toList []] := by
  intro added
  have hadded : ∀ a ∈ added, a.IsReadable := by decide
  exact ⟨.marker, hadded, (entries_additions .marker hadded).2.1⟩

/-- An unterminated style, such as that of the title, has its last entry extended by a flag. -/
example : ((empty.set "fontStyle" 1).unterminated.flag "shadow").entries =
    [.pair "fontStyle".toList "1shadow".toList] := by decide

end Style

end LineChart
