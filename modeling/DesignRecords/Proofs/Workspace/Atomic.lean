import DesignRecords.Proofs.Workspace.Reads
import DesignRecords.Proofs.Workspace.Save

namespace DesignRecords

namespace Workspace

variable {α β : Type} {w : Workspace} {task : Text} {disk disk' : Disk} {s s' : Session}
  {d : Document}

/-- What holds after an operation on a task's document that failed: every file but the one that the
document is written in first is as it was, and that one is gone if the document could not take its
place and the removal was not disturbed. -/
structure Failed (w : Workspace) (task : Text) (disk : Disk) (failure : Failure) (s' : Session) :
    Prop where
  kept : ∀ place, ¬ s'.disk.LeadsTo (w.layout.stagingOf disk task) place →
    s'.disk.fileAt? place = disk.fileAt? place
  cleared : ∀ fault,
    failure = .file "write design document" task (w.layout.design disk task) fault →
    (∀ fault', w.disturbances (s'.calls - 1) ⟨.removeFile, w.layout.stagingOf disk task⟩ ≠
      some (.failing fault')) → s'.disk.file? (w.layout.stagingOf disk task) = none

/-- What holds after a task's document has been replaced: the file of the document holds the text of
the new one, no text beside it is left, and every other file is as it was. -/
structure Replaced (w : Workspace) (task : Text) (disk disk' : Disk) (d : Document) : Prop where
  path : w.layout.design disk' task = w.layout.design disk task
  design : disk'.file? (w.layout.design disk task) = some (.text d.render)
  staging : disk'.file? (w.layout.stagingOf disk task) = none
  kept : ∀ place, ¬ disk'.LeadsTo (w.layout.design disk task) place →
    ¬ disk'.LeadsTo (w.layout.stagingOf disk task) place →
    disk'.fileAt? place = disk.fileAt? place

/-- Whether an operation is done in full or not at all. With a result it either found what it
returns, or it replaced the document by one that its result tells of. -/
def Atomic (w : Workspace) (task : Text) (disk : Disk) (found : α → Prop)
    (result : α → Document → Prop) : Except Failure α × Session → Prop
  | (.error failure, s') => w.Failed task disk failure s'
  | (.ok a, s') => (s'.disk = disk ∧ found a) ∨ ∃ d, result a d ∧ w.Replaced task disk s'.disk d

theorem failed_of_notWriting {f : Failure} (h : f.NotWriting)
    (hk : ∀ place, s'.disk.fileAt? place = disk.fileAt? place) : w.Failed task disk f s' where
  kept place _ := hk place
  cleared fault he := absurd he (h _ _ fault)

/-- What was read before an operation does not show in what comes of it. -/
theorem Atomic.bind {found : β → Prop} {result : β → Document → Prop} {x : Work α}
    {f : α → Work β} (hx : Work.Reads x)
    (hf : ∀ a s', x s = (.ok a, s') → Atomic w task s'.disk found result (f a s')) :
    Atomic w task s.disk found result ((x >>= f) s) := by
  rcases hx.bind_cases f s with ⟨e, s', hb, hk, he⟩ | ⟨a, s', ha, hb, hk⟩
  · rw [hb]
    exact failed_of_notWriting he fun place => by rw [hk]
  · rw [hb, ← hk]
    exact hf a s' ha

theorem atomic_of_saved {r : Except Failure Document × Session} (h : Saved w d s r) :
    Atomic w d.task s.disk (fun _ => False) (fun a d' => a = d' ∧ d' = w.stamped d) r := by
  cases h with
  | unwritten fault s' same cause =>
    refine ⟨fun place _ => by rw [same], fun fault' he => ?_⟩
    injection he with _ _ hp
    exact absurd hp (Layout.stagingOf_ne_design _ _ _)
  | left fault s' place located written cause disturbed =>
    refine ⟨fun q hq => ?_, fun fault' _ hd => ?_⟩
    · apply written.fileAt?_of_ne
      rintro rfl
      exact hq (Disk.leadsTo_iff.mpr (written.locate.mpr located))
    · obtain ⟨fault'', hf⟩ := disturbed
      exact absurd hf (hd fault'')
  | withdrawn fault s' place mid located written cause removed =>
    have hl := written.locate.mpr located
    refine ⟨fun q hq => ?_, fun _ _ _ => removed.file?_self hl⟩
    have hne : q ≠ place := by
      rintro rfl
      exact hq (Disk.leadsTo_iff.mpr (removed.locate.mpr hl))
    rw [removed.fileAt?_of_ne hne, written.fileAt?_of_ne hne]
  | replaced s' place goal mid gone located aimed written removed placed =>
    have hne := Layout.place_ne_goal located aimed
    have hl := removed.locate.mpr (written.locate.mpr located)
    have hg := removed.locate.mpr (written.locate.mpr aimed)
    refine Or.inr ⟨w.stamped d, ⟨rfl, rfl⟩, ?_, ?_, ?_, ?_⟩
    · rw [Layout.design_of_changed placed, Layout.design_of_changed removed,
        Layout.design_of_changed written]
    · exact placed.file?_self hg
    · rw [Disk.file?_of_locate (placed.locate.mpr hl), placed.view_of_ne hne, removed.view_self]
      rfl
    · intro q hq hq'
      have h1 : q ≠ goal := by
        rintro rfl
        exact hq (Disk.leadsTo_iff.mpr (placed.locate.mpr hg))
      have h2 : q ≠ place := by
        rintro rfl
        exact hq' (Disk.leadsTo_iff.mpr (placed.locate.mpr hl))
      rw [placed.fileAt?_of_ne h1, removed.fileAt?_of_ne h2,
        written.fileAt?_of_ne h2]

/-- Directories that are made on the way do not count. -/
theorem Atomic.of_grown {found : α → Prop} {result : α → Document → Prop}
    {r : Except Failure α × Session} (hg : disk.Grown disk')
    (hp : w.layout.design disk' task = w.layout.design disk task) (hf : ∀ a, ¬ found a)
    (h : Atomic w task disk' found result r) : Atomic w task disk found result r := by
  have hs : w.layout.stagingOf disk' task = w.layout.stagingOf disk task := by
    rw [Layout.stagingOf, hp, Layout.stagingOf]
  have hv : ∀ place, disk'.fileAt? place = disk.fileAt? place := hg.fileAt?
  rcases r with ⟨r, s'⟩
  cases r with
  | error f =>
    obtain ⟨hk, hc⟩ := h
    rw [hs] at hk hc
    rw [hp] at hc
    exact ⟨fun place hl => (hk place hl).trans (hv place), hc⟩
  | ok a =>
    rcases h with ⟨-, ha⟩ | ⟨d, hd, hr⟩
    · exact absurd ha (hf a)
    · obtain ⟨h1, h2, h3, h4⟩ := hr
      rw [hs] at h3 h4
      rw [hp] at h1 h2 h4
      exact Or.inr ⟨d, hd, h1, h2, h3, fun place hl hl' => (h4 place hl hl').trans (hv place)⟩

theorem Atomic.imp {found found' : α → Prop} {result result' : α → Document → Prop}
    {r : Except Failure α × Session} (h : Atomic w task disk found result r)
    (hf : ∀ a, found a → found' a) (hr : ∀ a d, result a d → result' a d) :
    Atomic w task disk found' result' r := by
  rcases r with ⟨r, s'⟩
  cases r with
  | error f => exact h
  | ok a =>
    rcases h with ⟨hd, ha⟩ | ⟨d, hd, h⟩
    · exact Or.inl ⟨hd, hf a ha⟩
    · exact Or.inr ⟨d, hr a d hd, h⟩

theorem atomic_of_reads {found : α → Prop} {result : α → Document → Prop} {x : Work α}
    (hx : Work.Reads x) (hf : ∀ a s', x s = (.ok a, s') → found a) :
    Atomic w task s.disk found result (x s) := by
  rcases hr : x s with ⟨r, s'⟩
  have hk := hx.disk hr
  cases r with
  | error f => exact failed_of_notWriting (hx.failures s f s' hr) fun place => by rw [hk]
  | ok a => exact Or.inl ⟨hk, hf a s' hr⟩

/-- What a document that is read was read from. -/
theorem document_eq_ok (h : w.document task s = (.ok d, s')) :
    ∃ t, s.disk.readText (w.layout.design s.disk task) = .ok t ∧ d = .read task t := by
  rcases hr : w.disturbances.readText (w.layout.design s.disk task) s with ⟨r, s''⟩
  cases r with
  | error fault =>
    rw [document_of_error hr] at h
    cases h
  | ok t =>
    rw [document_of_ok hr] at h
    cases h
    exact ⟨t, Disturbances.readText_of_ok hr, rfl⟩

theorem atomic_create (w : Workspace) (task : Text) (s : Session) :
    Atomic w task s.disk
      (fun d => ∃ t, s.disk.readText (w.layout.design s.disk task) = .ok t ∧ d = .read task t)
      (fun d d' => d = d' ∧ d' = w.stamped (.scaffold task)) (w.create task s) := by
  obtain ⟨s', hk, hc⟩ := w.create_apply task s
  rw [hc, ← hk]
  cases (w.hasDesign task s).1 with
  | true => exact atomic_of_reads (reads_document w task) fun _ _ => document_eq_ok
  | false =>
    rw [if_neg (by simp)]
    have hfail : ∀ fault (s'' : Session), s'.disk.Grown s''.disk →
        w.Failed task s'.disk (.file "create ticket directory" task (w.layout.ticket s'.disk task)
          fault) s'' := by
      intro fault s'' hg
      exact failed_of_notWriting (Work.notWriting_file (by decide) _ _ _) hg.fileAt?
    rcases w.disturbances.createDirectory_cases (w.layout.ticket s'.disk task) s' with
      ⟨fault, hm⟩ | hm
    · rw [bind_of_error _ _ (Work.onFile_of_error hm _ _ _)]
      exact hfail fault _ (Disk.Grown.refl _)
    · have hg := Disk.grown_createDirectory s'.disk (w.layout.ticket s'.disk task)
      rcases hr : s'.disk.createDirectory (w.layout.ticket s'.disk task) with ⟨r, disk⟩
      rw [hr] at hm hg
      cases r with
      | error fault =>
        rw [bind_of_error _ _ (Work.onFile_of_error hm _ _ _)]
        exact hfail fault _ hg
      | ok u =>
        rw [bind_of_ok _ _ (Work.onFile_of_ok hm _ _ _)]
        have hp : w.layout.design disk task = w.layout.design s'.disk task := by
          rw [Layout.design, Layout.ticket_of_created hr, Layout.design]
        have hs := atomic_of_saved (w.save_saved (.scaffold task) ⟨disk, s'.calls + 1⟩)
        exact (Atomic.of_grown hg hp (fun _ h => h) hs).imp (fun _ h => h.elim) fun _ _ h => h

theorem atomic_updateSection (w : Workspace) (task name content : Text) (s : Session) :
    Atomic w task s.disk (fun _ => False)
      (fun d d' => d = d' ∧ ∃ u t, Update.ofSection? name content = some u ∧
        s.disk.readText (w.layout.design s.disk task) = .ok t ∧
          d' = w.stamped (u.apply (.read task t))) (w.updateSection task name content s) := by
  cases hu : Update.ofSection? name content with
  | none =>
    rw [updateSection, hu]
    exact failed_of_notWriting (fun _ _ _ h => by cases h) fun _ => rfl
  | some u =>
    rw [updateSection_apply hu]
    apply Atomic.bind (reads_document w task)
    intro d s' hs
    obtain ⟨t, ht, rfl⟩ := document_eq_ok hs
    have h := atomic_of_saved (w.save_saved (u.apply (.read task t)) s')
    rw [Update.task_apply] at h
    exact h.imp (fun _ h => h) fun d d' hd => ⟨hd.1, u, t, rfl, ht, hd.2⟩

theorem atomic_populate (w : Workspace) (task : Text) (s : Session) :
    Atomic w task s.disk (fun _ => False)
      (fun added d' => ∃ t requirements decisions adrs,
        s.disk.readText (w.layout.design s.disk task) = .ok t ∧
          d' = w.stamped ((Document.read task t).merged requirements decisions adrs) ∧
            added = .between (.read task t) d') (w.populate task s) := by
  apply Atomic.bind (reads_document w task)
  intro d s₁ h₁
  obtain ⟨t, ht, rfl⟩ := document_eq_ok h₁
  apply Atomic.bind (reads_communicationsOf w task)
  intro cs s₂ h₂
  apply Atomic.bind (reads_extract w.asked task)
  intro decisions s₃ h₃
  apply Atomic.bind (reads_relatedAdrs w task)
  intro adrs s₄ _
  have hsaved := atomic_of_saved (w.save_saved ((Document.read task t).merged
    (Communication.requirements cs) decisions adrs) s₄)
  rcases hr : w.save ((Document.read task t).merged (Communication.requirements cs) decisions adrs)
    s₄ with ⟨r, s₅⟩
  rw [hr] at hsaved
  cases r with
  | error f =>
    rw [bind_of_error _ _ hr]
    exact hsaved
  | ok d =>
    rw [bind_of_ok _ _ hr]
    rcases hsaved with ⟨-, h⟩ | ⟨d', ⟨rfl, hd⟩, h⟩
    · exact h.elim
    · exact Or.inr ⟨d, ⟨t, Communication.requirements cs, decisions, adrs, ht, hd, hd ▸ rfl⟩, h⟩

/-- Every operation on a task's document is done in full or not at all, however the calls on the
disk are disturbed and whatever the communications of the task are. -/
theorem all_or_nothing (w : Workspace) (task : Text) (s : Session) :
    Atomic w task s.disk
      (fun d => ∃ t, s.disk.readText (w.layout.design s.disk task) = .ok t ∧ d = .read task t)
      (fun d d' => d = d' ∧ d' = w.stamped (.scaffold task)) (w.create task s) ∧
    (∀ name content, Atomic w task s.disk (fun _ => False)
      (fun d d' => d = d' ∧ ∃ u t, Update.ofSection? name content = some u ∧
        s.disk.readText (w.layout.design s.disk task) = .ok t ∧
          d' = w.stamped (u.apply (.read task t))) (w.updateSection task name content s)) ∧
    Atomic w task s.disk (fun _ => False)
      (fun added d' => ∃ t requirements decisions adrs,
        s.disk.readText (w.layout.design s.disk task) = .ok t ∧
          d' = w.stamped ((Document.read task t).merged requirements decisions adrs) ∧
            added = .between (.read task t) d') (w.populate task s) :=
  ⟨w.atomic_create task s, fun name content => w.atomic_updateSection task name content s,
    w.atomic_populate task s⟩

end Workspace

end DesignRecords
