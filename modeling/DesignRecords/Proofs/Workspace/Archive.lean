import DesignRecords.Proofs.Conflict.Candidate
import DesignRecords.Proofs.Disk.Along
import DesignRecords.Proofs.Disk.Shift

namespace DesignRecords

variable {d d' : Disk} {l : Layout} {r : Place} {p p' : Path} {task other : Text}
  {names : List Text}

namespace Disk

theorem exists_goal_of_move (h : d.move p p' = .ok d') : ∃ goal, d.locate p' = .ok goal := by
  obtain ⟨place, e, -, -, h⟩ := find_bind_eq_ok.mp h
  obtain ⟨goal, hl, -⟩ := resolve_bind_eq_ok.mp h
  exact ⟨goal, hl⟩

/-- A directory that could be made in another one is the only thing that is new. -/
theorem view_of_createDirectory {m n : Text} (hm : Path.IsName m) (hn : Path.IsName n)
    (hc : checked ((p.entry m).entry n) = .ok ()) (hmn : isNameTooLong m = false)
    (hnn : isNameTooLong n = false) (hr : d.reach p = .ok r)
    (hv : d.view (r ++ [m]) = some none)
    (h : d.createDirectory ((p.entry m).entry n) = (.ok (), d'))
    (hv' : d'.view (r ++ [m] ++ [n]) = some none) :
    (d.view (r ++ [m] ++ [n]) = none ∨ d.view (r ++ [m] ++ [n]) = some none) ∧
      d'.view = Function.update d.view (r ++ [m] ++ [n]) (some none) := by
  have hroot : d.view r = some none := view_of_append (q := [m]) (by rw [hv]; simp) (by simp)
  cases hthere : d.view (r ++ [m] ++ [n]) with
  | none =>
    obtain ⟨d₁, h₁, -, hv₁⟩ :=
      createDirectory_entry_entry hm hn hc hmn hnn hr hroot (Or.inr hv) hthere
    rw [h] at h₁
    cases h₁
    refine ⟨Or.inl rfl, ?_⟩
    rw [hv₁, ← hv, Function.update_eq_self]
  | some v =>
    have hg := grown_createDirectory d ((p.entry m).entry n)
    rw [h] at hg
    obtain rfl : v = none := by
      rcases hg.view (r ++ [m] ++ [n]) with hs | ⟨hs, -⟩
      · rw [hv', hthere] at hs
        exact (Option.some.inj hs).symm
      · rw [hthere] at hs
        cases hs
    have hreach := reach_entry_of_ok hm hmn hr hroot
    have hdir : d.isDirectory ((p.entry m).entry n) = true :=
      isDirectory_iff.mpr ⟨_, (locate_entry hn).mpr ⟨hc, _, hreach, hv, hnn, rfl⟩, hthere⟩
    rw [createDirectory_of_isDirectory hdir] at h
    cases h
    exact ⟨Or.inr rfl, by rw [← hthere, Function.update_eq_self]⟩

end Disk

namespace Layout

/-- Moves the directory of a ticket to those put away, for which a directory is made if there is
none. -/
def putAway (l : Layout) (d : Disk) (task : Text) : Except Fault Disk :=
  match d.createDirectory l.archive with
  | (.ok (), d) => d.move (l.tickets.entry task) (l.archive.entry task)
  | (.error fault, _) => .error fault

/-- The file of the document of a ticket that was put away. -/
def archivedDesign (l : Layout) (task : Text) : Path := (l.archive.entry task).entry "design.md"

/-- The names that lead from the root of a workspace to the directory of the tickets put away. -/
def archiveNames : List Text := ["tickets", archiveName]

/-- The names that lead to the directory of a ticket that is worked on. -/
def activeNames (task : Text) : List Text := ["tickets", task]

/-- The names that lead to the directory of a ticket that was put away. -/
def archivedNames (task : Text) : List Text := ["tickets", archiveName, task]

theorem isName_activeNames (hn : Path.IsName task) : ∀ n ∈ activeNames task, Path.IsName n := by
  simp only [activeNames, List.mem_cons, List.not_mem_nil, or_false]
  rintro n (rfl | rfl)
  · exact isName_tickets
  · exact hn

theorem isName_archivedNames (hn : Path.IsName task) :
    ∀ n ∈ archivedNames task, Path.IsName n := by
  simp only [archivedNames, List.mem_cons, List.not_mem_nil, or_false]
  rintro n (rfl | rfl | rfl)
  · exact isName_tickets
  · exact isName_archive
  · exact hn

/-- The path of a file of a ticket that is worked on is part of that of the file put away. -/
theorem checked_active {n : Text} (ht : Path.IsName task) (hn : Path.IsName n)
    (h : Disk.checked ((l.archive.entry task).entry n) = .ok ()) :
    Disk.checked ((l.tickets.entry task).entry n) = .ok () := by
  obtain ⟨hnull, -, hcount⟩ := Disk.checked_eq_ok.mp h
  rw [Path.text_entry_entry ht hn, archive, Path.text_entry_entry isName_archive ht, tickets,
    Path.text_entry_entry isName_tickets isName_archive] at hnull hcount
  refine Disk.checked_eq_ok.mpr ⟨?_, Path.entry_ne_nil hn, ?_⟩
  · rw [Path.text_entry_entry ht hn, tickets, Path.text_entry_entry isName_tickets ht]
    simp only [List.mem_append, not_or] at hnull ⊢
    tauto
  · rw [Path.text_entry_entry ht hn, tickets, Path.text_entry_entry isName_tickets ht]
    simp only [Disk.byteCount_append] at hcount ⊢
    omega

theorem ne_archivedNames (x : Place) : r ++ (archivedNames task ++ x) ≠ r ++ archiveNames := by
  simp [archivedNames, archiveNames]

theorem ne_activeNames (hfree : task ≠ archiveName) (x : Place) :
    r ++ (activeNames task ++ x) ≠ r ++ archiveNames := by
  simp [activeNames, archiveNames, hfree]

/-- The two steps in which a ticket is put away: there comes to be a directory for those put away,
and the ticket is moved there. -/
structure Filing (l : Layout) (d d₁ d' : Disk) (r : Place) (task : Text) : Prop where
  reach : d.reach l.root = .ok r
  takes : Disk.Takes l.root (archivedNames task)
  before : d.view (r ++ archiveNames) = none ∨ d.view (r ++ archiveNames) = some none
  active : d.view (r ++ activeNames task) = some none
  vacant : d.view (r ++ archivedNames task) = none
  current : d₁.current = d.current
  made : d₁.view = Function.update d.view (r ++ archiveNames) (some none)
  shifted : d₁.Shifted d' (r ++ activeNames task) (r ++ archivedNames task)

theorem filing_of_ok (hd : d.isDirectory (l.tickets.entry task) = true) (hn : Path.IsName task)
    (hfree : task ≠ archiveName) (hvacant : ¬ d.Lists l.archive task)
    (h : l.putAway d task = .ok d') : ∃ d₁ r, l.Filing d d₁ d' r task := by
  obtain ⟨d₁, hmake, hmove⟩ : ∃ d₁, d.createDirectory l.archive = (.ok (), d₁) ∧
      d₁.move (l.tickets.entry task) (l.archive.entry task) = .ok d' := by
    unfold putAway at h
    split at h
    next d₁ hmake => exact ⟨d₁, hmake, h⟩
    next => cases h
  have hg := Disk.grown_createDirectory d l.archive
  rw [hmake] at hg
  -- Where the ticket stands.
  obtain ⟨place, hl, hv⟩ := Disk.isDirectory_iff.mp hd
  obtain ⟨-, q, hq, htickets, hshort, rfl⟩ := (Disk.locate_entry hn).mp hl
  obtain ⟨r, hr, hrv, -, rfl⟩ := (Disk.reach_entry_eq_ok isName_tickets).mp hq
  -- Where it is to stand.
  obtain ⟨goal, hgoal⟩ := Disk.exists_goal_of_move hmove
  obtain ⟨hc, q', hq', hcontainer, -, rfl⟩ := (Disk.locate_entry hn).mp hgoal
  rw [archive, Disk.reach_entry isName_archive, hg.holds.reach hq] at hq'
  obtain ⟨-, -, rfl⟩ := (Disk.next_name isName_archive).mp hq'
  have hc' := Disk.checked_of_entry isName_archive hn hc
  obtain ⟨hbefore, hmade⟩ := Disk.view_of_createDirectory isName_tickets isName_archive hc'
    (by decide) (by decide) hr htickets hmake hcontainer
  have hnone : d.view (r ++ [("tickets" : Text)] ++ [archiveName] ++ [task]) = none := by
    rcases hbefore with hb | hb
    · exact Disk.view_append (by rw [hb]; simp) (by simp)
    · have hla : d.locate l.archive = .ok (r ++ [("tickets" : Text)] ++ [archiveName]) :=
        (Disk.locate_entry isName_archive).mpr ⟨hc', _, hq, htickets, by decide, rfl⟩
      rw [Disk.lists_iff hla] at hvacant
      exact not_not.mp hvacant
  have hnone' : d₁.view (r ++ [("tickets" : Text)] ++ [archiveName] ++ [task]) = none := by
    rw [hmade, Function.update_of_ne (by simp), hnone]
  have hshifted := Disk.shifted_of_move hmove (hg.holds.locate hl) (hg.holds.directory _ hv) hgoal
    hnone'
  simp only [List.append_assoc] at hbefore hv hnone hmade hshifted
  refine ⟨d₁, r, hr, ⟨isName_archivedNames hn, ?_, hc⟩, hbefore, hv, hnone, hg.current, hmade,
    hshifted⟩
  simp only [archivedNames, List.mem_cons, List.not_mem_nil, or_false]
  rintro n (rfl | rfl | rfl)
  · decide
  · decide
  · exact hshort

theorem Filing.named {d₁ : Disk} (h : l.Filing d d₁ d' r task) (hd : d.Named) : d'.Named := by
  have hgoal : r ++ archivedNames task = r ++ archiveNames ++ [task] := by
    rw [List.append_assoc]
    rfl
  have hshifted := h.shifted
  rw [hgoal] at hshifted
  refine hshifted.named (fun x n hv => ?_) (h.takes.name task (by simp [archivedNames]))
  by_cases he : x ++ [n] = r ++ archiveNames
  · have he : x ++ [n] = r ++ [("tickets" : Text)] ++ [archiveName] := by
      rw [he, List.append_assoc]
      rfl
    rw [(List.cons.inj (List.append_inj' he rfl).2).1]
    exact isName_archive
  · rw [h.made, Function.update_of_ne he] at hv
    exact hd x n hv

/-- A ticket that is put away leaves the root of the workspace where it is, if its path has no steps
up. -/
theorem Filing.reach_root {d₁ : Disk} (h : l.Filing d d₁ d' r task)
    (hup : (".." : Text) ∉ l.root.inner) : d'.reach l.root = d.reach l.root := by
  have hholds : d.Holds d₁ := by
    refine ⟨h.current, fun q hq => ?_⟩
    rw [h.made, Function.update_apply]
    split
    · rfl
    · exact hq
  have hvacant : d₁.view (r ++ archivedNames task) = none := by
    have hne : r ++ archivedNames task ≠ r ++ archiveNames := by
      simpa only [List.append_nil] using ne_archivedNames []
    rw [h.made, Function.update_of_ne hne, h.vacant]
  rw [h.reach]
  refine h.shifted.reach hvacant hup (fun hp => ?_) (hholds.reach h.reach)
  have hlength := hp.length_le
  simp only [activeNames, List.length_append, List.length_cons, List.length_nil] at hlength
  omega

/-- What it comes to on a disk that a ticket is put away, in a workspace whose root stays at its
place. -/
structure PutAway (l : Layout) (d d' : Disk) (r : Place) (task : Text) : Prop where
  reach : d.reach l.root = .ok r
  reach' : d'.reach l.root = .ok r
  name : Path.IsName task
  free : task ≠ archiveName
  takes : Disk.Takes l.root (archivedNames task)
  before : d.view (r ++ archiveNames) = none ∨ d.view (r ++ archiveNames) = some none
  container : d'.view (r ++ archiveNames) = some none
  active : d.view (r ++ activeNames task) = some none
  directory : d.isDirectory (l.tickets.entry task) = true
  moved : ∀ x, d'.view (r ++ (archivedNames task ++ x)) = d.view (r ++ (activeNames task ++ x))
  gone : ∀ x, d'.view (r ++ (activeNames task ++ x)) = none
  kept : ∀ x, x ≠ archiveNames → ¬ activeNames task <+: x → ¬ archivedNames task <+: x →
    d'.view (r ++ x) = d.view (r ++ x)
  named : d.Named → d'.Named

theorem putAway_of_ok (hd : d.isDirectory (l.tickets.entry task) = true) (hn : Path.IsName task)
    (hfree : task ≠ archiveName) (hvacant : ¬ d.Lists l.archive task)
    (hroot : d'.reach l.root = d.reach l.root) (h : l.putAway d task = .ok d') :
    ∃ r, l.PutAway d d' r task := by
  obtain ⟨d₁, r, hf⟩ := filing_of_ok hd hn hfree hvacant h
  have hsame : ∀ x, x ≠ r ++ archiveNames → d₁.view x = d.view x := fun x hx => by
    rw [hf.made, Function.update_of_ne hx]
  refine ⟨r, hf.reach, hroot.trans hf.reach, hn, hfree, hf.takes, hf.before, ?_, hf.active, hd,
    ?_, ?_, ?_, ?_⟩
  · rw [hf.shifted.kept, hf.made, Function.update_self]
    · rintro ⟨x, hx⟩
      exact ne_activeNames hfree x (by rw [← List.append_assoc, hx])
    · rintro ⟨x, hx⟩
      exact ne_archivedNames x (by rw [← List.append_assoc, hx])
  · intro x
    have hmoved := hf.shifted.moved x
    rwa [List.append_assoc, List.append_assoc, hsame _ (ne_activeNames hfree x)] at hmoved
  · intro x
    have hgone := hf.shifted.gone x
    rwa [List.append_assoc] at hgone
  · intro x hx hactive harchived
    rw [hf.shifted.kept (r ++ x) (by rwa [List.prefix_append_right_inj])
      (by rwa [List.prefix_append_right_inj]),
      hsame _ fun he => hx (List.append_cancel_left he)]
  · exact hf.named

/-- Whether neither of two ways along names leads through the end of the other one. -/
def Apart (names names' : List Text) : Prop := ¬ names <+: names' ∧ ¬ names' <+: names

theorem Apart.avoids {front x : List Text} (h : Apart front names)
    (hx : x <+: names ∨ names <+: x) : ¬ front <+: x := by
  intro hf
  rcases hx with hx | hx
  · exact h.1 (hf.trans hx)
  · rcases List.prefix_or_prefix_of_prefix hf hx with hp | hp
    · exact h.1 hp
    · exact h.2 hp

namespace PutAway

variable (h : l.PutAway d d' r task)

include h

/-- What lies apart from the two directories of the ticket is as it was. -/
theorem alike (hn : ∀ n ∈ names, Path.IsName n) (hactive : Apart (activeNames task) names)
    (harchived : Apart (archivedNames task) names)
    (hcontainer : Apart archiveNames names ∨ d.view (r ++ archiveNames) = some none) :
    d.Alike d' l.root r names := by
  refine ⟨hn, h.reach, h.reach', fun x hx => ?_⟩
  by_cases he : x = archiveNames
  · subst he
    rcases hcontainer with hc | hc
    · exact absurd List.prefix_rfl (hc.avoids hx)
    · rw [hc, h.container]
  · exact h.kept x he (hactive.avoids hx) (harchived.avoids hx)

theorem alike_docs : d.Alike d' l.root r ["docs"] :=
  h.alike (by decide) (by simp [Apart, activeNames]) (by simp [Apart, archivedNames])
    (Or.inl (by simp [Apart, archiveNames]))

theorem alike_active (hn : Path.IsName other) (hne : other ≠ task)
    (hfree : other ≠ archiveName) : d.Alike d' l.root r (activeNames other) :=
  h.alike (isName_activeNames hn) (by simp [Apart, activeNames, hne, hne.symm])
    (by simp [Apart, activeNames, archivedNames, hfree, hfree.symm])
    (Or.inl (by simp [Apart, activeNames, archiveNames, hfree, hfree.symm]))

theorem alike_archived (hn : Path.IsName other) (hne : other ≠ task)
    (hdir : d.view (r ++ archiveNames) = some none) :
    d.Alike d' l.root r (archivedNames other) :=
  h.alike (isName_archivedNames hn)
    (by simp [Apart, activeNames, archivedNames, h.free, h.free.symm])
    (by simp [Apart, archivedNames, hne, hne.symm]) (Or.inr hdir)

theorem isDirectory_active (hn : Path.IsName other) (hne : other ≠ task)
    (hfree : other ≠ archiveName) :
    d'.isDirectory (l.tickets.entry other) = d.isDirectory (l.tickets.entry other) := by
  have halike : d.Alike d' l.root r ([("tickets" : Text)] ++ [other]) :=
    h.alike_active hn hne hfree
  exact halike.isDirectory

theorem isDirectory_archived (hn : Path.IsName other) (hne : other ≠ task) :
    d'.isDirectory (l.archive.entry other) = d.isDirectory (l.archive.entry other) := by
  have hview := h.kept (archivedNames other) (by simp [archivedNames, archiveNames])
    (by simp [archivedNames, activeNames, h.free]) (by simp [archivedNames, hne.symm])
  rw [Bool.eq_iff_iff]
  refine (Disk.isDirectory_within archiveNames h.reach' (isName_archivedNames hn)).trans
    (Iff.trans ?_ (Disk.isDirectory_within archiveNames h.reach
      (isName_archivedNames hn)).symm)
  exact and_congr_right fun _ => by rw [show archiveNames ++ [other] = archivedNames other from rfl,
    hview]

theorem ticket_of_ne (hn : Path.IsName other) (hne : other ≠ task) (hfree : other ≠ archiveName) :
    l.ticket d' other = l.ticket d other := by
  rw [ticket, ticket, h.isDirectory_active hn hne hfree, h.isDirectory_archived hn hne]

/-- The documents of the other tickets are read as before. -/
theorem readText_design_of_ne (hn : Path.IsName other) (hne : other ≠ task)
    (hfree : other ≠ archiveName) (hdir : d.isDirectory (l.ticket d other) = true) :
    d'.readText (l.design d' other) = d.readText (l.design d other) := by
  rw [design, h.ticket_of_ne hn hne hfree, design]
  by_cases ha : d.isDirectory (l.tickets.entry other) = true
  · rw [ticket_of_active ha]
    exact ((h.alike_active hn hne hfree).concat isName_design).readText
  · have hb : d.isDirectory (l.archive.entry other) = true := by
      rcases l.ticket_cases d other with ht | ht
      · exact absurd (ht ▸ hdir) ha
      · exact ht ▸ hdir
    have hview := ((Disk.isDirectory_within archiveNames h.reach
      (isName_archivedNames hn)).mp hb).2
    rw [← List.append_assoc] at hview
    have hcontainer := Disk.view_of_append (q := [other]) (by rw [hview]; simp) (by simp)
    rw [ticket_of_archived (by simpa using ha) hb]
    exact ((h.alike_archived hn hne hcontainer).concat isName_design).readText

theorem not_isDirectory_active : d'.isDirectory (l.tickets.entry task) = false := by
  rw [← Bool.not_eq_true]
  intro hdir
  have hview := ((Disk.isDirectory_within ["tickets"] h.reach'
    (isName_activeNames h.name)).mp hdir).2
  have hgone := h.gone []
  rw [List.append_nil] at hgone
  exact absurd (hview.symm.trans hgone) (by simp)

theorem isDirectory_archived_self : d'.isDirectory (l.archive.entry task) = true := by
  refine (Disk.isDirectory_within archiveNames h.reach'
    (isName_archivedNames h.name)).mpr ⟨h.takes, ?_⟩
  have hmoved := h.moved []
  rw [List.append_nil, List.append_nil, h.active] at hmoved
  exact hmoved

theorem ticket_self : l.ticket d' task = l.archive.entry task :=
  ticket_of_archived h.not_isDirectory_active h.isDirectory_archived_self

theorem design_self : l.design d' task = l.archivedDesign task := by
  rw [design, h.ticket_self, archivedDesign]

theorem locate_archived {n : Text} (hn : Path.IsName n) (hs : Disk.isNameTooLong n = false)
    (hc : Disk.checked ((l.archive.entry task).entry n) = .ok ()) :
    d.locate ((l.tickets.entry task).entry n) = .ok (r ++ (activeNames task ++ [n])) ∧
      d'.locate ((l.archive.entry task).entry n) = .ok (r ++ (archivedNames task ++ [n])) := by
  obtain ⟨place, hl, hv⟩ := Disk.isDirectory_iff.mp h.directory
  obtain ⟨place', hl', hv'⟩ := Disk.isDirectory_iff.mp h.isDirectory_archived_self
  obtain ⟨-, -, rfl⟩ := (Disk.locate_within ["tickets"] h.reach
    (isName_activeNames h.name)).mp hl
  obtain ⟨-, -, rfl⟩ := (Disk.locate_within archiveNames h.reach'
    (isName_archivedNames h.name)).mp hl'
  constructor
  · exact (Disk.locate_entry hn).mpr ⟨checked_active h.name hn hc, _, Disk.reach_of_locate hl, hv,
      hs, (List.append_assoc _ _ _).symm⟩
  · exact (Disk.locate_entry hn).mpr ⟨hc, _, Disk.reach_of_locate hl', hv', hs,
      (List.append_assoc _ _ _).symm⟩

/-- The document of the ticket is read at its new place as it was at the old one. -/
theorem readText_design_self
    (hfits : Disk.checked (l.archivedDesign task) = .ok ()) :
    d'.readText (l.design d' task) = d.readText (l.design d task) := by
  obtain ⟨hl, hl'⟩ := h.locate_archived isName_design (by decide) hfits
  rw [h.design_self, archivedDesign, design, ticket_of_active h.directory,
    Disk.readText_of_locate hl, Disk.readText_of_locate hl', h.moved]

end PutAway

end Layout

end DesignRecords
