import DesignRecords.Proofs.Disk.Walk

namespace DesignRecords.Disk

variable {d d' d'' : Disk} {p p' : Path} {place goal q : Place} {c : Contents}
  {new : Option Contents}

/-- A file with new contents at a place where no directory stands, or nothing there any more. -/
structure Changed (d d' : Disk) (place : Place) (new : Option Contents) : Prop where
  current : d'.current = d.current
  file : d.view place ≠ some none
  view : d'.view = Function.update d.view place (new.map some)

theorem Changed.view_self (h : Changed d d' place new) : d'.view place = new.map some := by
  rw [h.view, Function.update_self]

theorem Changed.view_of_ne (h : Changed d d' place new) (hq : q ≠ place) :
    d'.view q = d.view q := by
  rw [h.view, Function.update_of_ne hq]

theorem Changed.holds (h : Changed d d' place new) : d.Holds d' where
  current := h.current
  directory q hq := by
    have hn : q ≠ place := by
      rintro rfl
      exact h.file hq
    rw [h.view_of_ne hn, hq]

theorem Changed.holds_back (h : Changed d d' place new) : d'.Holds d where
  current := h.current.symm
  directory q hq := by
    have hn : q ≠ place := by
      rintro rfl
      rw [h.view_self] at hq
      cases new <;> cases hq
    rwa [h.view_of_ne hn] at hq

/-- A change of a file does not change where paths lead. -/
theorem Changed.locate (h : Changed d d' place new) :
    d'.locate p = .ok q ↔ d.locate p = .ok q :=
  ⟨h.holds_back.locate, h.holds.locate⟩

/-- What the file at a place holds. -/
def fileAt? (d : Disk) (place : Place) : Option Contents := (d.lookup? place).bind Entry.contents?

/-- What the file at the end of a path holds. -/
def file? (d : Disk) (p : Path) : Option Contents :=
  match d.find p with
  | .ok (_, e) => e.contents?
  | .error _ => none

theorem fileAt?_eq (d : Disk) (place : Place) : d.fileAt? place = (d.view place).join := by
  unfold fileAt? view
  cases d.lookup? place <;> rfl

theorem file?_of_locate (h : d.locate p = .ok place) : d.file? p = (d.view place).join := by
  unfold file?
  cases he : d.lookup? place with
  | none =>
    have hv : d.view place = none := by simp [view, he]
    cases hf : d.find p with
    | error f => rw [hv]; rfl
    | ok r =>
      obtain ⟨hl, he'⟩ := find_eq_ok.mp hf
      rw [h] at hl
      cases hl
      rw [he] at he'
      cases he'
  | some e =>
    rw [find_eq_ok.mpr ⟨h, he⟩]
    simp [view, he]

theorem file?_eq_text {t : Text} : d.file? p = some (.text t) ↔ d.readText p = .ok t := by
  unfold file? Disk.readText
  cases d.find p with
  | error f => exact ⟨fun h => (by cases h), fun h => (by cases h)⟩
  | ok found =>
    obtain ⟨place, e⟩ := found
    cases e with
    | directory es => exact ⟨fun h => (by cases h), fun h => (by cases h)⟩
    | file c =>
      cases c with
      | text t' =>
        change some (Contents.text t') = some (.text t) ↔ (Except.ok t' : Except Fault Text) = .ok t
        simp
      | binary bytes => exact ⟨fun h => (by cases h), fun h => (by cases h)⟩

theorem Changed.fileAt?_of_ne (h : Changed d d' place new) (hq : q ≠ place) :
    d'.fileAt? q = d.fileAt? q := by
  rw [fileAt?_eq, fileAt?_eq, h.view_of_ne hq]

theorem Changed.file?_self (h : Changed d d' place new) (hp : d.locate p = .ok place) :
    d'.file? p = new := by
  rw [file?_of_locate (h.locate.mpr hp), h.view_self]
  cases new <;> rfl

theorem changed_put (hl : d.locate p = .ok place) (hv : d.view place ≠ some none) (c : Contents) :
    Changed d (d.put place (.file c)) place (some c) := by
  obtain ⟨q, n, rfl, hq⟩ := exists_parent hl hv
  exact ⟨rfl, hv, view_put hq hv fun _ => rfl⟩

theorem changed_erase (hl : d.locate p = .ok place) (hv : d.view place ≠ some none) :
    Changed d (d.erase place) place none := by
  obtain ⟨q, n, rfl, hq⟩ := exists_parent hl hv
  exact ⟨rfl, hv, view_erase hq hv⟩

theorem write_changed (h : d.write p c = .ok d') :
    ∃ place, d.locate p = .ok place ∧ Changed d d' place (some c) := by
  obtain ⟨place, hl, hv, rfl⟩ := write_eq_ok.mp h
  exact ⟨place, hl, changed_put hl hv c⟩

theorem removeFile_changed (h : d.removeFile p = .ok d') :
    ∃ place, d.locate p = .ok place ∧ Changed d d' place none := by
  obtain ⟨place, c, hl, hv, rfl⟩ := removeFile_eq_ok.mp h
  exact ⟨place, hl, changed_erase hl (by simp [hv])⟩

/-- A file that is moved leaves its place and stands at the other one. -/
theorem rename_changed (h : d.rename p p' = .ok d') :
    ∃ place goal c d'', d.locate p = .ok place ∧ d.view place = some (some c) ∧
      d.locate p' = .ok goal ∧ Changed d d'' place none ∧ Changed d'' d' goal (some c) := by
  obtain ⟨place, goal, c, hl, hv, hg, hn, rfl⟩ := rename_eq_ok.mp h
  have he : Changed d (d.erase place) place none := changed_erase hl (by simp [hv])
  have hg' : (d.erase place).locate p' = .ok goal := he.locate.mpr hg
  have hn' : (d.erase place).view goal ≠ some none := fun h => hn (he.holds_back.directory goal h)
  exact ⟨place, goal, c, d.erase place, hl, hv, hg, he, changed_put hg' hn' c⟩

/-- More directories where nothing stood. -/
structure Grown (d d' : Disk) : Prop where
  current : d'.current = d.current
  view : ∀ q, d'.view q = d.view q ∨ d.view q = none ∧ d'.view q = some none

theorem Grown.refl (d : Disk) : d.Grown d := ⟨rfl, fun _ => Or.inl rfl⟩

theorem Grown.trans (h : d.Grown d') (h' : d'.Grown d'') : d.Grown d'' where
  current := h'.current.trans h.current
  view q := by
    rcases h.view q with hq | ⟨hq, hq'⟩
    · rcases h'.view q with hr | ⟨hr, hr'⟩
      · exact Or.inl (hr.trans hq)
      · exact Or.inr ⟨hq ▸ hr, hr'⟩
    · rcases h'.view q with hr | ⟨hr, -⟩
      · exact Or.inr ⟨hq, hr.trans hq'⟩
      · rw [hq'] at hr
        cases hr

theorem Grown.holds (h : d.Grown d') : d.Holds d' where
  current := h.current
  directory q hq := by
    rcases h.view q with h | ⟨h, -⟩
    · rw [h, hq]
    · rw [h] at hq
      cases hq

theorem Grown.fileAt? (h : d.Grown d') (q : Place) : d'.fileAt? q = d.fileAt? q := by
  rw [fileAt?_eq, fileAt?_eq]
  rcases h.view q with h | ⟨h, h'⟩
  · rw [h]
  · rw [h, h']
    rfl

end DesignRecords.Disk
