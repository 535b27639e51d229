import Mathlib.Data.List.Basic
import LineChart.Command.FileTree

namespace LineChart.Command.FileTree

theorem entry?_eq_folder_iff (t : FileTree) (l : Location) :
    t.entry? l = some .folder ↔ isStanding l ∨ l ∈ t.folders := by
  unfold entry?
  split
  · simp_all
  · cases t.files.lookup l <;> simp_all

theorem seek_eq_ok {t : FileTree} {l : Location} {name : String} {entry : Option Entry}
    (h : t.seek l name = .ok entry) :
    name.utf8ByteSize ≤ nameLimit ∧ t.entry? (l ++ [name]) = entry := by
  unfold seek at h
  split at h
  · contradiction
  · rename_i hsize
    exact ⟨Nat.le_of_not_lt hsize, Except.ok.inj h⟩

theorem seek_of_le {t : FileTree} {l : Location} {name : String}
    (h : name.utf8ByteSize ≤ nameLimit) : t.seek l name = .ok (t.entry? (l ++ [name])) :=
  if_neg (Nat.not_lt_of_le h)

/-! ## Ways through folders -/

/-- A way stays open as long as its folders stay. -/
theorem descend_of_folders {t t' : FileTree}
    (hfolders : ∀ l, t.entry? l = some .folder → t'.entry? l = some .folder) {names : List String}
    {l l' : Location} (h : t.descend l names = .ok l') : t'.descend l names = .ok l' := by
  induction names generalizing l with
  | nil => exact h
  | cons name names ih =>
    unfold descend at h ⊢
    split at h
    · rename_i hdot
      rw [if_pos hdot]
      exact ih h
    · rename_i hdot
      rw [if_neg hdot]
      split at h
      · rename_i hup
        rw [if_pos hup]
        exact ih h
      · rename_i hup
        rw [if_neg hup]
        split at h
        · contradiction
        · contradiction
        · contradiction
        · rename_i hseek
          obtain ⟨hsize, hentry⟩ := seek_eq_ok hseek
          rw [seek_of_le hsize, hfolders _ hentry]
          exact ih h

theorem holder_of_folders {t t' : FileTree}
    (hfolders : ∀ l, t.entry? l = some .folder → t'.entry? l = some .folder) {path : String}
    {r : Route} {l : Location} (h : t.holder path r = .ok l) : t'.holder path r = .ok l := by
  unfold holder at h ⊢
  split at h
  · contradiction
  · rename_i hsize
    rw [if_neg hsize]
    exact descend_of_folders hfolders h

/-! ## Where a file comes to stand -/

/-- A file is placed in a folder that is there, under a name that no folder has. -/
structure PlacesIn (t : FileTree) (path : String) (folder l : Location) : Prop where
  holder : t.holder path (.ofPath path) = .ok folder
  last : l = folder ++ [(Route.ofPath path).last]
  named : ¬isDots (Route.ofPath path).last
  bare : ¬(Route.ofPath path).slash
  short : (Route.ofPath path).last.utf8ByteSize ≤ nameLimit
  free : t.entry? l ≠ some .folder

theorem exists_placesIn {t : FileTree} {path : String} {l : Location} (h : t.place path = .ok l) :
    ∃ folder, t.PlacesIn path folder l := by
  unfold place at h
  cases hholder : t.holder path (.ofPath path) with
  | error fault => simp [hholder, bind, Except.bind] at h
  | ok folder =>
    simp only [hholder, bind, Except.bind] at h
    split at h
    · contradiction
    · rename_i hname
      rw [not_or] at hname
      cases hseek : t.seek folder (Route.ofPath path).last with
      | error fault => simp [hseek] at h
      | ok entry =>
        obtain ⟨hsize, hentry⟩ := seek_eq_ok hseek
        simp only [hseek] at h
        split at h
        · contradiction
        · rename_i hfree
          obtain rfl := Except.ok.inj h
          exact ⟨folder, hholder, rfl, hname.1, hname.2, hsize,
            fun hfolder => hfree (hentry ▸ hfolder)⟩

theorem PlacesIn.find_eq {t : FileTree} {path : String} {folder l : Location}
    {content : ByteArray} (h : t.PlacesIn path folder l) (hfile : t.entry? l = some (.file content)) :
    t.find path = .ok (.file content) := by
  have hseek := h.last ▸ seek_of_le (t := t) (l := folder) h.short
  unfold find
  simp only [h.holder, bind, Except.bind]
  rw [if_neg h.named, hseek, hfile]
  simp [h.bare]

/-! ## Trees after a file has been written -/

theorem lookup_filter_ne {l l' : Location} (files : List (Location × ByteArray)) (h : l' ≠ l) :
    (files.filter (·.1 ≠ l)).lookup l' = files.lookup l' := by
  induction files with
  | nil => rfl
  | cons file files ih =>
    obtain ⟨k, content⟩ := file
    by_cases hk : k = l
    · have hne : (l' == k) = false := beq_eq_false_iff_ne.mpr (hk ▸ h)
      rw [List.filter_cons_of_neg (by simpa using hk), List.lookup_cons, hne, ih]
    · rw [List.filter_cons_of_pos (by simpa using hk), List.lookup_cons, List.lookup_cons, ih]

theorem write_eq_ok {t t' : FileTree} {path : String} {content : ByteArray}
    (h : t.write path content = .ok t') :
    ∃ l, t.place path = .ok l ∧
      t' = { t with files := (l, content) :: t.files.filter (·.1 ≠ l) } := by
  unfold write at h
  cases hplace : t.place path with
  | error fault => simp [hplace, bind, Except.bind] at h
  | ok l =>
    simp only [hplace, bind, Except.bind] at h
    exact ⟨l, rfl, (Except.ok.inj h).symm⟩

theorem place_eq_error {t : FileTree} {path : String} {content : ByteArray} {fault : SystemFault}
    (h : t.write path content = .error fault) : t.place path = .error fault := by
  unfold write at h
  cases hplace : t.place path with
  | error fault' => simpa [hplace, bind, Except.bind] using h
  | ok l => simp [hplace, bind, Except.bind] at h

/-- A file that is written takes its place, and every other location keeps what it holds. -/
theorem entry?_write {t t' : FileTree} {path : String} {content : ByteArray}
    (h : t.write path content = .ok t') :
    ∃ l, t.place path = .ok l ∧
      ∀ l', t'.entry? l' = if l' = l then some (.file content) else t.entry? l' := by
  obtain ⟨l, hplace, rfl⟩ := write_eq_ok h
  obtain ⟨folder, hin⟩ := exists_placesIn hplace
  refine ⟨l, hplace, fun l' => ?_⟩
  by_cases hl : l' = l
  · have hfree := hin.free
    rw [ne_eq, entry?_eq_folder_iff] at hfree
    rw [if_pos hl, hl, entry?, if_neg hfree]
    simp
  · have hne : (l' == l) = false := beq_eq_false_iff_ne.mpr hl
    rw [if_neg hl, entry?, entry?, List.lookup_cons, hne, lookup_filter_ne _ hl]

/-- What has been written under a path is found there. -/
theorem find_write {t t' : FileTree} {path : String} {content : ByteArray}
    (h : t.write path content = .ok t') : t'.find path = .ok (.file content) := by
  obtain ⟨l, hplace, hentry⟩ := entry?_write h
  obtain ⟨folder, hin⟩ := exists_placesIn hplace
  -- a file never takes the place of a folder, so the way to it is still open
  have hfolders : ∀ l', t.entry? l' = some .folder → t'.entry? l' = some .folder := by
    intro l' hl'
    have hne : l' ≠ l := fun heq => hin.free (heq ▸ hl')
    rw [hentry, if_neg hne, hl']
  have hfile : t'.entry? l = some (.file content) := by rw [hentry, if_pos rfl]
  have hin' : t'.PlacesIn path folder l :=
    { hin with holder := holder_of_folders hfolders hin.holder, free := by simp [hfile] }
  exact hin'.find_eq hfile

end LineChart.Command.FileTree
