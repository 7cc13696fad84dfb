import DesignRecords.Proofs.Disk.Name
import DesignRecords.Proofs.Workspace.Run

namespace DesignRecords

namespace Layout

variable {l : Layout} {d d' : Disk} {task : Text} {p : Path} {place goal : Place}

/-- The file in which a task's design document is written before it takes its place. -/
def stagingOf (l : Layout) (d : Disk) (task : Text) : Path := staging (l.design d task)

theorem isName_design : Path.IsName "design.md" := ⟨by decide, by decide, by decide⟩

theorem isName_staging : Path.IsName "design.md.tmp" := ⟨by decide, by decide, by decide⟩

theorem ticket_congr (h : ∀ p, d'.isDirectory p = d.isDirectory p) :
    l.ticket d' task = l.ticket d task := by simp only [ticket, h]

/-- Where a task's document stands depends on the directories of a disk alone. -/
theorem design_congr (h : ∀ p, d'.isDirectory p = d.isDirectory p) :
    l.design d' task = l.design d task := by rw [design, ticket_congr h, design]

/-- A directory that is made for a ticket becomes the directory of the ticket. -/
theorem ticket_of_created (h : d.createDirectory (l.ticket d task) = (.ok (), d')) :
    l.ticket d' task = l.ticket d task := by
  have hmade := Disk.createDirectory_ok (d := d) (p := l.ticket d task) (by rw [h])
  rw [h] at hmade
  rcases hmade with hd | hmade
  · have hd : d' = d := hd
    rw [hd]
  · simp only [ticket] at h hmade ⊢
    cases ha : d.isDirectory (l.tickets.entry task) with
    | true =>
      rw [ha, if_pos rfl, Disk.createDirectory_of_isDirectory ha] at h
      cases h
      simp [ha]
    | false =>
      cases hb : d.isDirectory (l.archive.entry task) with
      | true =>
        rw [ha, hb, if_neg (by simp), if_pos rfl, Disk.createDirectory_of_isDirectory hb] at h
        cases h
        simp [ha, hb]
      | false =>
        rw [ha, hb, if_neg (by simp), if_neg (by simp)] at hmade
        simp [hmade]

theorem design_of_changed {new : Option Contents} (h : Disk.Changed d d' place new) :
    l.design d' task = l.design d task :=
  design_congr fun p => Disk.isDirectory_congr h.holds h.holds_back p

theorem locate_design (h : d.locate (l.design d task) = .ok goal) :
    ∃ q, goal = q ++ ["design.md".toList] := by
  obtain ⟨-, q, -, -, -, rfl⟩ := (Disk.locate_entry isName_design).mp h
  exact ⟨q, rfl⟩

theorem locate_staging (h : d.locate (staging p) = .ok place) :
    ∃ q, place = q ++ ["design.md.tmp".toList] := by
  obtain ⟨-, q, -, -, -, rfl⟩ := (Disk.locate_entry isName_staging).mp h
  exact ⟨q, rfl⟩

theorem stagingOf_ne_design (l : Layout) (d : Disk) (task : Text) :
    l.stagingOf d task ≠ l.design d task := by
  intro h
  have hp : (l.stagingOf d task).pieces = (l.design d task).pieces := by rw [h]
  rw [stagingOf, staging, Path.sibling, Path.pieces_entry isName_staging, design,
    Path.pieces_entry isName_design] at hp
  have hl := (List.append_inj' hp rfl).2
  exact absurd hl (by decide)

/-- A document and the file it is written in first never stand at one place. -/
theorem place_ne_goal (hp : d.locate (l.stagingOf d task) = .ok place)
    (hg : d.locate (l.design d task) = .ok goal) : place ≠ goal := by
  obtain ⟨q, rfl⟩ := locate_staging hp
  obtain ⟨r, rfl⟩ := locate_design hg
  intro h
  have hl := (List.append_inj' h rfl).2
  exact absurd hl (by decide)

end Layout

/-- The text of a document stays as it is when the file that it is written in first changes. -/
theorem Layout.readText_of_changed {l : Layout} {d d' : Disk} {task t : Text} {place : Place}
    {new : Option Contents} (h : Disk.Changed d d' place new)
    (hl : d.locate (l.stagingOf d task) = .ok place)
    (ht : d.readText (l.design d task) = .ok t) : d'.readText (l.design d' task) = .ok t := by
  obtain ⟨goal, hg, hv⟩ := Disk.readText_eq_ok.mp ht
  have hne := place_ne_goal hl hg
  rw [design_of_changed h]
  exact Disk.readText_eq_ok.mpr ⟨goal, h.locate.mpr hg, by rw [h.view_of_ne hne.symm, hv]⟩

theorem Update.task_apply (u : Update) (d : Document) : (u.apply d).task = d.task := by
  cases u <;> rfl

namespace Workspace

/-- A document with the present time as the time of its last change. -/
def stamped (w : Workspace) (d : Document) : Document := { d with updated := some w.now }

/-- What can come of saving a document. -/
inductive Saved (w : Workspace) (d : Document) (s : Session) :
    Except Failure Document × Session → Prop
  /-- Nothing was written. -/
  | unwritten (fault : Fault) (s' : Session) (same : s'.disk = s.disk)
    (cause : w.disturbances s.calls ⟨.write, w.layout.stagingOf s.disk d.task⟩ =
        some (.failing fault) ∨
      s.disk.write (w.layout.stagingOf s.disk d.task) (.text (w.stamped d).render) =
        .error fault) :
    Saved w d s (.error (.file "write design document" d.task
      (w.layout.stagingOf s.disk d.task) fault), s')
  /-- The document could not take its place, and its text could not be removed. -/
  | left (fault : Fault) (s' : Session) (place : Place)
    (located : s.disk.locate (w.layout.stagingOf s.disk d.task) = .ok place)
    (written : Disk.Changed s.disk s'.disk place (some (.text (w.stamped d).render)))
    (cause : w.disturbances (s.calls + 1) ⟨.rename, w.layout.design s.disk d.task⟩ =
        some (.failing fault) ∨
      s'.disk.rename (w.layout.stagingOf s.disk d.task) (w.layout.design s.disk d.task) =
        .error fault)
    (disturbed : ∃ fault, w.disturbances (s'.calls - 1)
      ⟨.removeFile, w.layout.stagingOf s.disk d.task⟩ = some (.failing fault)) :
    Saved w d s (.error (.file "write design document" d.task (w.layout.design s.disk d.task)
      fault), s')
  /-- The document could not take its place, and its text was removed again. -/
  | withdrawn (fault : Fault) (s' : Session) (place : Place) (mid : Disk)
    (located : s.disk.locate (w.layout.stagingOf s.disk d.task) = .ok place)
    (written : Disk.Changed s.disk mid place (some (.text (w.stamped d).render)))
    (cause : w.disturbances (s.calls + 1) ⟨.rename, w.layout.design s.disk d.task⟩ =
        some (.failing fault) ∨
      mid.rename (w.layout.stagingOf s.disk d.task) (w.layout.design s.disk d.task) =
        .error fault)
    (removed : Disk.Changed mid s'.disk place none) :
    Saved w d s (.error (.file "write design document" d.task (w.layout.design s.disk d.task)
      fault), s')
  /-- The document has taken its place. -/
  | replaced (s' : Session) (place goal : Place) (mid gone : Disk)
    (located : s.disk.locate (w.layout.stagingOf s.disk d.task) = .ok place)
    (aimed : s.disk.locate (w.layout.design s.disk d.task) = .ok goal)
    (written : Disk.Changed s.disk mid place (some (.text (w.stamped d).render)))
    (removed : Disk.Changed mid gone place none)
    (placed : Disk.Changed gone s'.disk goal (some (.text (w.stamped d).render))) :
    Saved w d s (.ok (w.stamped d), s')

section

variable {w : Workspace} {d : Document} {s s₁ s₂ s₃ : Session} {fault : Fault}

theorem save_of_write_error
    (hw : w.disturbances.write (w.layout.stagingOf s.disk d.task) (w.stamped d).render s =
      (.error fault, s₁)) :
    w.save d s = (.error (.file "write design document" d.task
      (w.layout.stagingOf s.disk d.task) fault), s₁) :=
  (bind_of_ok _ _ (design_apply w d.task s) _).trans
    (bind_of_error _ _ (Work.onFile_of_error hw _ _ _) _)

variable (hw : w.disturbances.write (w.layout.stagingOf s.disk d.task) (w.stamped d).render s =
  (.ok (), s₁))

include hw

theorem save_of_rename
    (hr : w.disturbances.rename (w.layout.stagingOf s.disk d.task) (w.layout.design s.disk d.task)
      s₁ = (.ok (), s₂)) :
    w.save d s = (.ok (w.stamped d), s₂) := by
  have hwrote := Work.onFile_of_ok hw "write design document" d.task
    (w.layout.stagingOf s.disk d.task)
  exact (bind_of_ok _ _ (design_apply w d.task s) _).trans ((bind_of_ok _ _ hwrote _).trans
    (bind_of_ok _ _ (Work.attempt_of hr) _))

/-- Whether the text can be removed again makes no difference to the failure that is reported. -/
theorem save_of_rename_error {r : Except Fault Unit}
    (hr : w.disturbances.rename (w.layout.stagingOf s.disk d.task) (w.layout.design s.disk d.task)
      s₁ = (.error fault, s₂))
    (hm : w.disturbances.removeFile (w.layout.stagingOf s.disk d.task) s₂ = (r, s₃)) :
    w.save d s = (.error (.file "write design document" d.task (w.layout.design s.disk d.task)
      fault), s₃) := by
  have hwrote := Work.onFile_of_ok hw "write design document" d.task
    (w.layout.stagingOf s.disk d.task)
  exact (bind_of_ok _ _ (design_apply w d.task s) _).trans ((bind_of_ok _ _ hwrote _).trans
    ((bind_of_ok _ _ (Work.attempt_of hr) _).trans (bind_of_ok _ _ (Work.attempt_of hm) _)))

end

theorem save_saved (w : Workspace) (d : Document) (s : Session) : Saved w d s (w.save d s) := by
  rcases w.disturbances.changes_write (w.layout.stagingOf s.disk d.task) (w.stamped d).render s with
    ⟨fault, hw, hc⟩ | ⟨disk, hw, hwrite⟩
  · rw [save_of_write_error hw]
    exact .unwritten fault _ rfl hc
  · obtain ⟨place, hlocated, hwritten⟩ := Disk.write_changed hwrite
    have hl : disk.locate (w.layout.stagingOf s.disk d.task) = .ok place :=
      hwritten.locate.mpr hlocated
    have hv : disk.view place = some (some (.text (w.stamped d).render)) := hwritten.view_self
    rcases w.disturbances.changes_rename (w.layout.stagingOf s.disk d.task)
      (w.layout.design s.disk d.task) ⟨disk, s.calls + 1⟩ with
      ⟨fault, hr, hc⟩ | ⟨disk', hr, hrename⟩
    · rcases w.disturbances.changes_removeFile (w.layout.stagingOf s.disk d.task)
        ⟨disk, s.calls + 1 + 1⟩ with ⟨fault', hm, hf⟩ | ⟨disk'', hm, hremove⟩
      · rw [save_of_rename_error hw hr hm]
        -- What has just been written can be removed, unless that is disturbed.
        refine .left fault _ place hlocated hwritten hc ⟨fault', hf.resolve_right fun hf => ?_⟩
        cases (Disk.removeFile_eq_ok.mpr ⟨place, _, hl, hv, rfl⟩).symm.trans hf
      · rw [save_of_rename_error hw hr hm]
        obtain ⟨place', hl', hremoved⟩ := Disk.removeFile_changed hremove
        cases hl.symm.trans hl'
        exact .withdrawn fault _ place disk hlocated hwritten hc hremoved
    · rw [save_of_rename hw hr]
      obtain ⟨place', goal, c, gone, hl', hv', hg, hremoved, hplaced⟩ := Disk.rename_changed hrename
      cases hl.symm.trans hl'
      cases hv.symm.trans hv'
      exact .replaced _ place goal disk gone hlocated (hwritten.locate.mp hg) hwritten hremoved
        hplaced

section

variable {w : Workspace} {d e : Document} {s s' : Session} (h : Saved w d s (.ok e, s'))

include h

/-- A document that has been saved stands at its place, the file that it was written in first is
gone, and nothing else has changed. -/
theorem Saved.view : ∃ place goal, s.disk.locate (w.layout.stagingOf s.disk d.task) = .ok place ∧
    s.disk.locate (w.layout.design s.disk d.task) = .ok goal ∧
    s'.disk.current = s.disk.current ∧
    s'.disk.view = Function.update (Function.update s.disk.view place none) goal
      (some (some (.text (w.stamped d).render))) := by
  cases h with
  | replaced s' place goal mid gone located aimed written removed placed =>
    refine ⟨place, goal, located, aimed,
      placed.current.trans (removed.current.trans written.current), ?_⟩
    rw [placed.view, removed.view, written.view, Function.update_idem]
    rfl

theorem Saved.eq_stamped : e = w.stamped d := by
  cases h
  rfl

theorem Saved.holds : s.disk.Holds s'.disk := by
  cases h with
  | replaced s' place goal mid gone located aimed written removed placed =>
    exact written.holds.trans (removed.holds.trans placed.holds)

theorem Saved.holds_back : s'.disk.Holds s.disk := by
  cases h with
  | replaced s' place goal mid gone located aimed written removed placed =>
    exact placed.holds_back.trans (removed.holds_back.trans written.holds_back)

theorem Saved.ticket (task : Text) : w.layout.ticket s'.disk task = w.layout.ticket s.disk task :=
  Layout.ticket_congr fun p => Disk.isDirectory_congr h.holds h.holds_back p

theorem Saved.design (task : Text) : w.layout.design s'.disk task = w.layout.design s.disk task :=
  Layout.design_congr fun p => Disk.isDirectory_congr h.holds h.holds_back p

/-- A document that has been saved is what is there. -/
theorem Saved.written :
    s'.disk.readText (w.layout.design s'.disk d.task) = .ok (w.stamped d).render := by
  obtain ⟨place, goal, -, hg, -, hv⟩ := h.view
  rw [h.design]
  exact Disk.readText_eq_ok.mpr ⟨goal, h.holds.locate hg, by rw [hv, Function.update_self]⟩

end

/-- A document that could not be saved leaves the one that was there. -/
theorem Saved.unchanged {w : Workspace} {d : Document} {s s' : Session} {f : Failure} {t : Text}
    (h : Saved w d s (.error f, s'))
    (ht : s.disk.readText (w.layout.design s.disk d.task) = .ok t) :
    s'.disk.readText (w.layout.design s'.disk d.task) = .ok t := by
  cases h with
  | unwritten fault s' same cause => rwa [same]
  | left fault s' place located written cause disturbed =>
    exact Layout.readText_of_changed written located ht
  | withdrawn fault s' place mid located written cause removed =>
    have hl : mid.locate (w.layout.stagingOf mid d.task) = .ok place := by
      rw [Layout.stagingOf, Layout.design_of_changed written]
      exact written.locate.mpr located
    exact Layout.readText_of_changed removed hl
      (Layout.readText_of_changed written located ht)

/-- A document is saved where nothing is disturbed and no directory is in the way. -/
theorem save_of_undisturbed {w : Workspace} {d : Document} {s : Session} {place goal : Place}
    (hn : w.disturbances = .none)
    (hp : s.disk.locate (w.layout.stagingOf s.disk d.task) = .ok place)
    (hg : s.disk.locate (w.layout.design s.disk d.task) = .ok goal)
    (hpv : s.disk.view place ≠ some none) (hgv : s.disk.view goal ≠ some none) :
    ∃ s', w.save d s = (.ok (w.stamped d), s') ∧ s'.disk.current = s.disk.current ∧
      s'.disk.view = Function.update (Function.update s.disk.view place none) goal
        (some (some (.text (w.stamped d).render))) := by
  have hcalm : ∀ n call fault, w.disturbances n call ≠ some (.failing fault) := by
    intro n call fault h
    rw [hn] at h
    cases h
  have hmoves : ∀ (mid : Disk) (fault : Fault),
      Disk.Changed s.disk mid place (some (.text (w.stamped d).render)) →
      mid.rename (w.layout.stagingOf s.disk d.task) (w.layout.design s.disk d.task) ≠
        .error fault := by
    intro mid fault written h
    have hgm : mid.view goal ≠ some none := fun h => hgv (written.holds_back.directory goal h)
    cases (Disk.rename_eq_ok.mpr ⟨place, goal, _, written.locate.mpr hp, written.view_self,
      written.locate.mpr hg, hgm, rfl⟩).symm.trans h
  have hs := w.save_saved d s
  rcases hr : w.save d s with ⟨r, s'⟩
  rw [hr] at hs
  cases r with
  | ok e =>
    obtain ⟨place', goal', hp', hg', hc, hv⟩ := hs.view
    cases hp.symm.trans hp'
    cases hg.symm.trans hg'
    exact ⟨s', by rw [hs.eq_stamped], hc, hv⟩
  | error f =>
    exfalso
    cases hs with
    | unwritten fault _ same cause =>
      rcases cause with h | h
      · exact hcalm _ _ _ h
      · cases (Disk.write_eq_ok.mpr ⟨place, hp, hpv, rfl⟩).symm.trans h
    | left fault _ place' located written cause disturbed =>
      cases hp.symm.trans located
      exact cause.elim (hcalm _ _ _) (hmoves _ _ written)
    | withdrawn fault _ place' mid located written cause removed =>
      cases hp.symm.trans located
      exact cause.elim (hcalm _ _ _) (hmoves _ _ written)

end Workspace

end DesignRecords
