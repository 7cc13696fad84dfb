import DesignRecords.Proofs.Text.Content
import DesignRecords.Proofs.Workspace.Save

namespace DesignRecords

variable {d d' : Disk} {l : Layout} {r place : Place} {task n : Text}

/-- Whether a text can name a task with a directory of its own. -/
structure Text.NamesTask (task : Text) : Prop where
  name : Path.IsName task
  solid : Text.blank task = false
  trimmed : Text.trim task = task
  single : Text.Single task
  free : task ≠ Layout.archiveName

instance : Decidable task.NamesTask :=
  decidable_of_iff ((Path.isIdle task = false ∧ (task == "..") = false ∧ '/' ∉ task) ∧
      Text.blank task = false ∧ Text.trim task = task ∧ Text.Single task ∧
      task ≠ Layout.archiveName)
    ⟨fun ⟨⟨idle, up, slash⟩, solid, trimmed, single, free⟩ =>
        ⟨⟨idle, up, slash⟩, solid, trimmed, single, free⟩,
      fun ⟨⟨idle, up, slash⟩, solid, trimmed, single, free⟩ =>
        ⟨⟨idle, up, slash⟩, solid, trimmed, single, free⟩⟩

/-- Whether a disk takes the names of the files of a task. -/
structure Layout.Fits (l : Layout) (task : Text) : Prop where
  short : Disk.isNameTooLong task = false
  checked : Disk.checked ((l.tickets.entry task).entry "design.md.tmp") = .ok ()

instance : Decidable (l.Fits task) :=
  decidable_of_iff (Disk.isNameTooLong task = false ∧
      Disk.checked ((l.tickets.entry task).entry "design.md.tmp") = .ok ())
    ⟨fun ⟨short, checked⟩ => ⟨short, checked⟩, fun ⟨short, checked⟩ => ⟨short, checked⟩⟩

/-- The place of the directory of tickets in a workspace with its root at `r`. -/
def shelf (r : Place) : Place := r ++ [("tickets" : Text)]

/-- The place of the directory of a task. -/
def home (r : Place) (task : Text) : Place := shelf r ++ [task]

/-- Whether a workspace is empty: its entries are to stand in an empty directory. -/
structure Layout.Bare (l : Layout) (d : Disk) (r : Place) : Prop where
  reach : d.reach l.root = .ok r
  empty : d.lookup? r = some (.directory [])

/-- Whether the root of a workspace is at a place, and no ticket is put away. -/
structure Layout.Rooted (l : Layout) (d : Disk) (r : Place) : Prop where
  reach : d.reach l.root = .ok r
  root : d.view r = some none
  tickets : d.view (shelf r) = none ∨ d.view (shelf r) = some none
  archive : d.view (home r archiveName) = none

instance : Decidable (l.Rooted d r) :=
  decidable_of_iff (d.reach l.root = .ok r ∧ d.view r = some none ∧
      (d.view (shelf r) = none ∨ d.view (shelf r) = some none) ∧
      d.view (home r Layout.archiveName) = none)
    ⟨fun ⟨reach, root, tickets, archive⟩ => ⟨reach, root, tickets, archive⟩,
      fun ⟨reach, root, tickets, archive⟩ => ⟨reach, root, tickets, archive⟩⟩

namespace Layout

theorem isName_tickets : Path.IsName "tickets" := ⟨by decide, by decide, by decide⟩

theorem isName_archive : Path.IsName archiveName := ⟨by decide, by decide, by decide⟩

theorem isName_docs : Path.IsName "docs" := ⟨by decide, by decide, by decide⟩

theorem isName_decisions : Path.IsName "decisions" := ⟨by decide, by decide, by decide⟩

theorem isName_wiki : Path.IsName "wiki" := ⟨by decide, by decide, by decide⟩

/-- A ticket stands among those that are being worked on or among those put away. -/
theorem ticket_cases (l : Layout) (d : Disk) (task : Text) :
    l.ticket d task = l.tickets.entry task ∨ l.ticket d task = l.archive.entry task := by
  simp only [ticket]
  split
  · exact Or.inl rfl
  · split
    · exact Or.inr rfl
    · exact Or.inl rfl

theorem ticket_of_active (h : d.isDirectory (l.tickets.entry task) = true) :
    l.ticket d task = l.tickets.entry task := by
  simp [ticket, h]

theorem ticket_of_archived (h : d.isDirectory (l.tickets.entry task) = false)
    (h' : d.isDirectory (l.archive.entry task) = true) :
    l.ticket d task = l.archive.entry task := by
  simp [ticket, h, h']

theorem Rooted.reach_tickets (h : l.Rooted d r) : d.reach l.tickets = .ok (shelf r) :=
  Disk.reach_entry_of_ok isName_tickets (by decide) h.reach h.root

theorem Rooted.not_archived (h : l.Rooted d r) (ht : Path.IsName task) :
    d.isDirectory (l.archive.entry task) = false := by
  rw [← Bool.not_eq_true, Disk.isDirectory_iff]
  rintro ⟨place, hl, -⟩
  obtain ⟨-, q, hq, hv, -⟩ := (Disk.locate_entry ht).mp hl
  rw [Layout.archive, Disk.reach_entry isName_archive, h.reach_tickets] at hq
  obtain ⟨-, -, rfl⟩ := (Disk.next_name isName_archive).mp hq
  have ha := h.archive
  rw [home] at ha
  rw [ha] at hv
  cases hv

/-- The directory of a task is among the tickets that are being worked on. -/
theorem Rooted.ticket (h : l.Rooted d r) (ht : Path.IsName task) :
    l.ticket d task = l.tickets.entry task := by
  simp [Layout.ticket, h.not_archived ht]

theorem Rooted.design (h : l.Rooted d r) (ht : Path.IsName task) :
    l.design d task = (l.tickets.entry task).entry "design.md" := by
  rw [Layout.design, h.ticket ht]

theorem Rooted.stagingOf (h : l.Rooted d r) (ht : Path.IsName task) :
    l.stagingOf d task = (l.tickets.entry task).entry "design.md.tmp" := by
  rw [Layout.stagingOf, h.design ht, staging, Path.sibling, Path.parent?_entry ht isName_design]
  rfl

theorem Fits.checked_design (h : l.Fits task) (ht : Path.IsName task) :
    Disk.checked ((l.tickets.entry task).entry "design.md") = .ok () := by
  have he : (l.tickets.entry task).text.isEmpty = false := by
    simpa using Path.entry_ne_nil (p := l.tickets) ht
  refine Disk.checked_of_start (Path.entry_ne_nil isName_design) ?_ h.checked
  rw [Path.text_entry isName_design, Path.text_entry isName_staging, he, Path.endsWith_entry ht]
  exact ⟨".tmp", by simp⟩

/-- The files of a task stand in its directory. -/
theorem Rooted.locate_file (h : l.Rooted d r) (ht : Path.IsName task) (hf : l.Fits task)
    (hh : d.view (home r task) = some none) (hn : Path.IsName n)
    (hs : Disk.isNameTooLong n = false)
    (hc : Disk.checked ((l.tickets.entry task).entry n) = .ok ()) :
    d.locate ((l.tickets.entry task).entry n) = .ok (home r task ++ [n]) := by
  have hv : d.view (shelf r) = some none := by
    refine Disk.view_of_append (q := [task]) ?_ (by simp)
    rw [← home, hh]
    simp
  have hr := Disk.reach_entry_of_ok ht hf.short h.reach_tickets hv
  exact (Disk.locate_entry hn).mpr ⟨hc, home r task, hr, hh, hs, rfl⟩

theorem Rooted.locate_design (h : l.Rooted d r) (ht : Path.IsName task) (hf : l.Fits task)
    (hh : d.view (home r task) = some none) :
    d.locate ((l.tickets.entry task).entry "design.md") =
      .ok (home r task ++ [("design.md" : Text)]) :=
  h.locate_file ht hf hh isName_design (by decide) (hf.checked_design ht)

theorem Rooted.locate_staging (h : l.Rooted d r) (ht : Path.IsName task) (hf : l.Fits task)
    (hh : d.view (home r task) = some none) :
    d.locate ((l.tickets.entry task).entry "design.md.tmp") =
      .ok (home r task ++ [("design.md.tmp" : Text)]) :=
  h.locate_file ht hf hh isName_staging (by decide) hf.checked

/-- A task without a directory has no document. -/
theorem Rooted.locate_missing (h : l.Rooted d r) (ht : Path.IsName task) (hf : l.Fits task)
    (hh : d.view (home r task) = none) :
    d.locate ((l.tickets.entry task).entry "design.md") = .error .missing := by
  rw [Disk.locate_entry_apply isName_design, hf.checked_design ht, Disk.reach_entry ht,
    h.reach_tickets]
  change (d.next (shelf r) task >>= fun q => d.next q _) = _
  rcases h.tickets with hv | hv
  · have hr : d.next (shelf r) task = .error .missing := by simp only [Disk.next, hv]
    rw [hr]
    rfl
  · have hr : d.next (shelf r) task = .ok (home r task) :=
      (Disk.next_name ht).mpr ⟨hv, hf.short, rfl⟩
    rw [hr]
    change d.next (home r task) _ = _
    simp only [Disk.next, hh]

/-- What a change in the directory of a task leaves as it was. -/
structure Confined (d d' : Disk) (r : Place) (task : Text) : Prop where
  holds : d.Holds d'
  tickets : d'.view (shelf r) = some none
  elsewhere : ∀ q, q ≠ shelf r → ¬ home r task <+: q → d'.view q = d.view q

theorem Confined.trans {d'' : Disk} (h : Confined d d' r task) (h' : Confined d' d'' r task) :
    Confined d d'' r task where
  holds := h.holds.trans h'.holds
  tickets := h'.tickets
  elsewhere q hq hn := (h'.elsewhere q hq hn).trans (h.elsewhere q hq hn)

theorem Rooted.confined (h : l.Rooted d r) (hc : Confined d d' r task) (ht : task ≠ archiveName) :
    l.Rooted d' r where
  reach := hc.holds.reach h.reach
  root := hc.holds.directory r h.root
  tickets := Or.inr hc.tickets
  archive := by
    rw [hc.elsewhere, h.archive]
    · simp [home]
    · simp [home, ht]

/-- The directory of a task is made. -/
theorem confined_made (hh : d.view (home r task) = none) (hc : d'.current = d.current)
    (hv : d'.view = Function.update
      (Function.update d.view (shelf r) (some none)) (home r task) (some none)) :
    Confined d d' r task where
  holds := by
    refine ⟨hc, fun q hq => ?_⟩
    have hne : q ≠ home r task := by
      rintro rfl
      rw [hh] at hq
      cases hq
    rw [hv, Function.update_of_ne hne]
    by_cases he : q = shelf r
    · rw [he, Function.update_self]
    · rw [Function.update_of_ne he, hq]
  tickets := by
    have hne : shelf r ≠ home r task := by simp [home]
    rw [hv, Function.update_of_ne hne, Function.update_self]
  elsewhere q hq hp := by
    have hne : q ≠ home r task := fun he => hp (he ▸ List.prefix_rfl)
    rw [hv, Function.update_of_ne hne, Function.update_of_ne hq]

/-- A document is written in the directory of a task. -/
theorem confined_saved {t : Text} (hh : d.view (home r task) = some none)
    (hp : d.view (home r task ++ [("design.md.tmp" : Text)]) ≠ some none)
    (hg : d.view (home r task ++ [("design.md" : Text)]) ≠ some none)
    (hc : d'.current = d.current) (hv : d'.view = Function.update
      (Function.update d.view (home r task ++ [("design.md.tmp" : Text)]) none)
      (home r task ++ [("design.md" : Text)]) (some (some (.text t)))) :
    Confined d d' r task := by
  have hkeep : ∀ q, q ≠ home r task ++ [("design.md.tmp" : Text)] →
      q ≠ home r task ++ [("design.md" : Text)] → d'.view q = d.view q := by
    intro q hq hq'
    rw [hv, Function.update_of_ne hq', Function.update_of_ne hq]
  have hs : d.view (shelf r) = some none := by
    refine Disk.view_of_append (q := [task]) ?_ (by simp)
    rw [← home, hh]
    simp
  constructor
  · refine ⟨hc, fun q hq => ?_⟩
    rw [hkeep q _ _, hq]
    · rintro rfl
      exact hp hq
    · rintro rfl
      exact hg hq
  · rw [hkeep, hs]
    · simp [home]
    · simp [home]
  · intro q _ hn
    apply hkeep
    · rintro rfl
      exact hn (List.prefix_append _ _)
    · rintro rfl
      exact hn (List.prefix_append _ _)

/-- The directory of a task that has none can be made, and is empty then. -/
theorem Rooted.createDirectory (h : l.Rooted d r) (ht : task.NamesTask) (hf : l.Fits task)
    (hh : d.view (home r task) = none) :
    ∃ d', d.createDirectory (l.tickets.entry task) = (.ok (), d') ∧ Confined d d' r task ∧
      d'.view (home r task) = some none ∧ ∀ n, d'.view (home r task ++ [n]) = none := by
  have hc := Disk.checked_of_entry ht.name isName_staging hf.checked
  obtain ⟨d', hd, hc', hv⟩ := Disk.createDirectory_entry_entry isName_tickets ht.name hc
    (by decide) hf.short h.reach h.root h.tickets hh
  refine ⟨d', hd, confined_made hh hc' hv, by rw [hv, home, shelf, Function.update_self], ?_⟩
  intro n
  have h1 : home r task ++ [n] ≠ home r task := by simp
  have h2 : home r task ++ [n] ≠ shelf r := by simp [home]
  rw [hv]
  change Function.update (Function.update d.view (shelf r) _) (home r task) _ _ = _
  rw [Function.update_of_ne h1, Function.update_of_ne h2]
  exact Disk.view_append (by simp [hh]) (by simp)

end Layout

end DesignRecords
