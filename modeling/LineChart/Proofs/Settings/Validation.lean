import LineChart.Proofs.LastSetting
import LineChart.Proofs.Number.Arithmetic
import LineChart.Proofs.Settings

namespace LineChart

open Number

section Choices

variable {α : Type}

def Choice.canvas? : Choice α → Option (Canvas α)
  | canvas c => some c
  | _ => none

def Choice.host? : Choice α → Option String
  | host name => some name
  | _ => none

def Choice.agent? : Choice α → Option String
  | agent name => some name
  | _ => none

def Choice.modified? : Choice α → Option String
  | modified stamp => some stamp
  | _ => none

variable [Scalar α]

/-- Every field as it was last chosen, or else as it is in the standard settings. -/
def Settings.lastChosen (choices : List (Choice α)) : Settings α where
  canvas := (choices.filterMap Choice.canvas?).getLast?.getD .standard
  host := (choices.filterMap Choice.host?).getLast?.getD "Electron"
  agent := (choices.filterMap Choice.agent?).getLast?.getD "MermaidCLI"
  modified := (choices.filterMap Choice.modified?).getLast?

theorem Settings.foldl_choose (choices : List (Choice α)) :
    choices.foldl Settings.choose .standard = Settings.lastChosen choices := by
  have hcanvas := field_foldl choose Settings.canvas Choice.canvas?
    (fun s choice => by cases choice <;> rfl) choices .standard
  have hhost := field_foldl choose (fun s => s.host) Choice.host?
    (fun s choice => by cases choice <;> rfl) choices .standard
  have hagent := field_foldl choose (fun s => s.agent) Choice.agent?
    (fun s choice => by cases choice <;> rfl) choices .standard
  have hmodified := field_foldl choose (fun s => s.modified)
    (fun choice => choice.modified?.map some)
    (fun s choice => by cases choice <;> rfl) choices .standard
  have hstamp : (choices.filterMap fun choice => choice.modified?.map some).getLast?.getD none =
      (choices.filterMap Choice.modified?).getLast? := by
    rw [← List.map_filterMap, List.getLast?_map]
    cases (choices.filterMap Choice.modified?).getLast? <;> rfl
  generalize choices.foldl choose .standard = s at *
  obtain ⟨⟨host, agent, modified⟩, canvas⟩ := s
  simp only at hcanvas hhost hagent hmodified
  rw [hcanvas, hhost, hagent, hmodified]
  exact congrArg (fun stamp => Settings.mk ⟨_, _, stamp⟩ _) hstamp

end Choices

/-! ## What a canvas has to meet -/

/-- What a canvas without the fault has. -/
def CanvasFault.Avoided (c : Canvas Float) : CanvasFault → Prop
  | size => Scalar.ofNat 0 < c.width ∧ Scalar.ofNat 0 < c.height
  | margins => Scalar.ofNat 0 ≤ c.padding ∧ Scalar.ofNat 0 ≤ c.xOffset
  | drawableArea => Scalar.ofNat 0 < c.plotHeight ∧ Scalar.ofNat 0 < c.innerWidth

instance (c : Canvas Float) : DecidablePred (CanvasFault.Avoided c)
  | .size => inferInstanceAs (Decidable (_ ∧ _))
  | .margins => inferInstanceAs (Decidable (_ ∧ _))
  | .drawableArea => inferInstanceAs (Decidable (_ ∧ _))

/-- The first requirement that a canvas fails: a size, margins that are not negative, and room
between them. -/
def Canvas.unmet? (c : Canvas Float) : Option CanvasFault :=
  [CanvasFault.size, .margins, .drawableArea].find? fun fault => ¬fault.Avoided c

/-- The settings last chosen, if their canvas meets every requirement. -/
def Settings.validated (choices : List (Choice Float)) : Except CanvasFault (Settings Float) :=
  let s := Settings.lastChosen choices
  match s.canvas.unmet? with
  | some fault => .error fault
  | none => .ok s

/-- A canvas that is as wide as can be, and whose margins take an infinity from an infinity: the
room between them is no number. -/
structure Canvas.Immeasurable (c : Canvas Float) : Prop where
  height : Scalar.ofNat 0 < c.height
  padding : Scalar.ofNat 0 ≤ c.padding
  xOffset : Scalar.ofNat 0 ≤ c.xOffset
  width : c.width = infinity
  margins : c.height = infinity ∧ Scalar.ofNat 2 * c.padding = infinity ∨
    Scalar.ofNat 0 < c.plotHeight ∧ Scalar.ofNat 2 * c.xOffset = infinity

namespace Canvas

variable {c : Canvas Float}

theorem plotHeight_le_zero (hheight : Scalar.ofNat 0 < c.height) (hne : c.height ≠ infinity)
    (hpadding : Scalar.ofNat 2 * c.padding = infinity) : c.plotHeight ≤ Scalar.ofNat 0 := by
  rw [plotHeight, hpadding, sub_infinity (not_isNaN_of_zero_lt hheight) hne]
  exact negativeInfinity_le_zero

theorem innerWidth_le_zero (hwidth : Scalar.ofNat 0 < c.width) (hne : c.width ≠ infinity)
    (hpadding : Scalar.ofNat 2 * c.padding = infinity) (hoffset : Scalar.ofNat 0 ≤ c.xOffset) :
    c.innerWidth ≤ Scalar.ofNat 0 := by
  rw [innerWidth, plotWidth, hpadding, sub_infinity (not_isNaN_of_zero_lt hwidth) hne,
    negativeInfinity_sub (atLeastZero_double ((zero_le_iff _).mp hoffset))]
  exact negativeInfinity_le_zero

/-- An infinity is taken from an infinity, at the latest for the width inside the insets. -/
theorem Immeasurable.isNaN_innerWidth (h : c.Immeasurable) : isNaN c.innerWidth := by
  have hpadding := atLeastZero_double ((zero_le_iff _).mp h.padding)
  have hoffset := atLeastZero_double ((zero_le_iff _).mp h.xOffset)
  have hplot : Scalar.ofNat 2 * c.padding = infinity → isNaN c.plotWidth := fun hp =>
    (isNaN_sub_iff hpadding).mpr (.inr ⟨h.width, hp⟩)
  rw [innerWidth, isNaN_sub_iff hoffset]
  obtain ⟨-, hp⟩ | ⟨-, hx⟩ := h.margins
  · exact .inl (hplot hp)
  · by_cases hp : Scalar.ofNat 2 * c.padding = infinity
    · exact .inl (hplot hp)
    · exact .inr ⟨by rw [plotWidth, h.width, infinity_sub hpadding hp], hx⟩

theorem Immeasurable.not_plotHeight_le (h : c.Immeasurable) : ¬c.plotHeight ≤ Scalar.ofNat 0 := by
  have hpadding := atLeastZero_double ((zero_le_iff _).mp h.padding)
  rw [not_le_zero_iff]
  obtain ⟨hh, hp⟩ | ⟨hroom, -⟩ := h.margins
  · exact .inl ((isNaN_sub_iff hpadding).mpr (.inr ⟨hh, hp⟩))
  · exact .inr hroom

/-- Where the room is no number, but is not told to be missing either, there is no measure. -/
theorem immeasurable_of_isNaN (hsize : CanvasFault.size.Avoided c)
    (hmargins : CanvasFault.margins.Avoided c) (hheight : ¬c.plotHeight ≤ Scalar.ofNat 0)
    (hwidth : ¬c.innerWidth ≤ Scalar.ofNat 0) (hnan : isNaN c.plotHeight ∨ isNaN c.innerWidth) :
    c.Immeasurable := by
  obtain ⟨hw0, hh0⟩ := hsize
  obtain ⟨hpadding, hoffset⟩ := hmargins
  have htwice := atLeastZero_double ((zero_le_iff _).mp hpadding)
  have htwice' := atLeastZero_double ((zero_le_iff _).mp hoffset)
  by_cases hp : Scalar.ofNat 2 * c.padding = infinity
  · have hw : c.width = infinity := by
      by_contra hne
      exact hwidth (innerWidth_le_zero hw0 hne hp hoffset)
    have hh : c.height = infinity := by
      by_contra hne
      exact hheight (plotHeight_le_zero hh0 hne hp)
    exact ⟨hh0, hpadding, hoffset, hw, .inl ⟨hh, hp⟩⟩
  · -- the padding is within reason, so that only the inset can be beyond it
    have hnumber : ∀ {extent : Float}, Scalar.ofNat 0 < extent →
        ¬isNaN (extent - Scalar.ofNat 2 * c.padding) := by
      intro extent hpos hn
      rcases (isNaN_sub_iff htwice).mp hn with hn | ⟨-, hp'⟩
      · exact not_isNaN_of_zero_lt hpos hn
      · exact hp hp'
    have hpos : Scalar.ofNat 0 < c.plotHeight :=
      ((not_le_zero_iff _).mp hheight).resolve_left (hnumber hh0)
    have hinner : isNaN c.innerWidth := hnan.resolve_left (hnumber hh0)
    obtain hn | ⟨hplot, hx⟩ := (isNaN_sub_iff htwice').mp hinner
    · exact absurd hn (hnumber hw0)
    · exact ⟨hh0, hpadding, hoffset, eq_infinity_of_sub hw0 htwice hplot, .inr ⟨hpos, hx⟩⟩

theorem fault?_eq (c : Canvas Float) : c.fault? =
    if ¬CanvasFault.size.Avoided c then some .size
    else if ¬CanvasFault.margins.Avoided c then some .margins
    else if c.plotHeight ≤ Scalar.ofNat 0 ∨ c.innerWidth ≤ Scalar.ofNat 0 then some .drawableArea
    else none := rfl

theorem unmet?_eq (c : Canvas Float) : c.unmet? =
    if ¬CanvasFault.size.Avoided c then some .size
    else if ¬CanvasFault.margins.Avoided c then some .margins
    else if ¬CanvasFault.drawableArea.Avoided c then some .drawableArea
    else none := by
  simp only [unmet?, List.find?_cons, List.find?_nil, decide_not]
  split_ifs <;> simp_all

theorem Immeasurable.size (h : c.Immeasurable) : CanvasFault.size.Avoided c :=
  ⟨h.width ▸ by decide +kernel, h.height⟩

theorem Immeasurable.margins_avoided (h : c.Immeasurable) : CanvasFault.margins.Avoided c :=
  ⟨h.padding, h.xOffset⟩

/-- The last test asks whether room is missing, and so lets through room that is no number. -/
theorem Immeasurable.fault?_eq_none (h : c.Immeasurable) : c.fault? = none := by
  have hwidth : ¬c.innerWidth ≤ Scalar.ofNat 0 :=
    (not_le_zero_iff _).mpr (.inl h.isNaN_innerWidth)
  rw [fault?_eq, if_neg (not_not_intro h.size), if_neg (not_not_intro h.margins_avoided),
    if_neg (not_or.mpr ⟨h.not_plotHeight_le, hwidth⟩)]

theorem Immeasurable.unmet?_eq (h : c.Immeasurable) : c.unmet? = some .drawableArea := by
  have hroom : ¬CanvasFault.drawableArea.Avoided c := fun hroom =>
    not_isNaN_of_zero_lt hroom.2 h.isNaN_innerWidth
  rw [Canvas.unmet?_eq, if_neg (not_not_intro h.size), if_neg (not_not_intro h.margins_avoided),
    if_pos hroom]

theorem fault?_eq_unmet? (h : ¬c.Immeasurable) : c.fault? = c.unmet? := by
  rw [fault?_eq, Canvas.unmet?_eq]
  by_cases hsize : CanvasFault.size.Avoided c
  swap
  · rw [if_pos hsize, if_pos hsize]
  by_cases hmargins : CanvasFault.margins.Avoided c
  swap
  · rw [if_neg (not_not_intro hsize), if_neg (not_not_intro hsize), if_pos hmargins,
      if_pos hmargins]
  have hroom : c.plotHeight ≤ Scalar.ofNat 0 ∨ c.innerWidth ≤ Scalar.ofNat 0 ↔
      ¬CanvasFault.drawableArea.Avoided c := by
    constructor
    · rintro (hle | hle) ⟨hheight, hwidth⟩
      · exact (not_le_zero_iff _).mpr (.inr hheight) hle
      · exact (not_le_zero_iff _).mpr (.inr hwidth) hle
    · intro hnone
      by_contra hle
      obtain ⟨hheight, hwidth⟩ := not_or.mp hle
      have hnumber := fun hnan => h (immeasurable_of_isNaN hsize hmargins hheight hwidth hnan)
      exact hnone ⟨((not_le_zero_iff _).mp hheight).resolve_left fun hnan => hnumber (.inl hnan),
        ((not_le_zero_iff _).mp hwidth).resolve_left fun hnan => hnumber (.inr hnan)⟩
  simp only [hroom]

end Canvas

/-- Settings are what was last chosen, field by field, and a canvas with a fault is refused for the
first of its faults. Only canvases without a measure are let through though they have no room. -/
theorem Settings.ofChoices_eq_validated_iff (choices : List (Choice Float)) :
    (Settings.ofChoices choices = Settings.validated choices ↔
      ¬(Settings.lastChosen choices).canvas.Immeasurable) ∧
    ((Settings.lastChosen choices).canvas.Immeasurable →
      Settings.ofChoices choices = .ok (Settings.lastChosen choices) ∧
        Settings.validated choices = .error .drawableArea) := by
  have hexempt : (Settings.lastChosen choices).canvas.Immeasurable →
      Settings.ofChoices choices = .ok (Settings.lastChosen choices) ∧
        Settings.validated choices = .error .drawableArea := by
    intro h
    refine ⟨ofChoices_eq_ok_iff.mpr ⟨foldl_choose choices, h.fault?_eq_none⟩, ?_⟩
    rw [Settings.validated, h.unmet?_eq]
  refine ⟨⟨fun heq h => ?_, fun h => ?_⟩, hexempt⟩
  · obtain ⟨hok, herror⟩ := hexempt h
    rw [heq, herror] at hok
    contradiction
  · have hfault := Canvas.fault?_eq_unmet? h
    simp only [Settings.ofChoices, Settings.validated, foldl_choose]
    cases hunmet : (lastChosen choices).canvas.unmet? with
    | none => simp only [hfault.trans hunmet]
    | some fault => simp only [hfault.trans hunmet]

/-- Nothing is left of a boundless canvas whose margins are boundless too. -/
theorem Settings.ofChoices_boundless :
    let boundless : Canvas Float := ⟨infinity, infinity, infinity, Scalar.ofNat 30⟩
    (Settings.ofChoices [.canvas boundless] : Except CanvasFault (Settings Float)) =
        .ok { (Settings.standard : Settings Float) with canvas := boundless } ∧
      isNaN boundless.plotHeight ∧ isNaN boundless.innerWidth ∧
      Settings.validated [.canvas boundless] = .error .drawableArea := by
  decide +kernel

end LineChart
