import DesignRecords.Proofs.Document.Stable
import DesignRecords.Proofs.Workspace.Atomic
import DesignRecords.Proofs.Workspace.Home

namespace DesignRecords

variable {α β : Type} {l : Layout} {disk : Disk} {task name content t : Text} {s s' : Session}
  {ok : Update → Prop} {p : Document → Prop} {w : Workspace} {d : Document}

namespace Layout

/-- Whether a task has a document, and one of a kind. -/
def Holds (l : Layout) (task : Text) (p : Document → Prop) (disk : Disk) : Prop :=
  ∃ t, disk.readText (l.design disk task) = .ok t ∧ p (.read task t)

theorem isDirectory_ticket (h : disk.readText (l.design disk task) = .ok t) :
    disk.isDirectory (l.ticket disk task) = true := by
  obtain ⟨goal, hl, -⟩ := Disk.readText_eq_ok.mp h
  refine Disk.isDirectory_of_locate_entry isName_design ?_ hl
  rcases l.ticket_cases disk task with he | he
  · rw [he]
    exact Path.entry_ne_nil_of_ne_nil (Path.entry_ne_nil isName_tickets) task
  · rw [he]
    exact Path.entry_ne_nil_of_ne_nil (Path.entry_ne_nil isName_archive) task

end Layout

/-- The decisions that messages tell of can be written and read back. -/
theorem Communication.plain_of_mem_decisions {cs : List Communication}
    (h : ∀ c ∈ cs, Date.Valid c.date.date) : ∀ x ∈ decisions cs, x.Plain := by
  intro x hx
  obtain ⟨c, hc, rfl⟩ := List.mem_map.mp hx
  exact
    { date := by
        intro day hday
        cases hday
        exact h c (List.mem_filter.mp hc).1
      source := fun h => by cases h }

/-- What work that follows reading leaves of the disk shows in the work alone. -/
theorem Work.Reads.after {x : Work α} {f : α → Work β} {q : Disk → Prop} (hx : Reads x)
    (hs : q s.disk) (hf : ∀ a s', x s = (.ok a, s') → s'.disk = s.disk → q (f a s').2.disk) :
    q ((x >>= f) s).2.disk := by
  rcases hx.bind_cases f s with ⟨e, s', hb, hk, -⟩ | ⟨a, s', ha, hb, hk⟩
  · rw [hb]
    exact hk ▸ hs
  · rw [hb]
    exact hf a s' ha hk

namespace Workspace

/-- What is read where nothing goes wrong. -/
def shown (w : Workspace) (task : Text) (s : Session) : Except Failure Document :=
  ({ w with disturbances := .none }.document task s).1

theorem shown_of_readText (h : s.disk.readText (w.layout.design s.disk task) = .ok t) :
    w.shown task s = .ok (.read task t) := by
  have hr : Disturbances.none.readText (w.layout.design s.disk task) s =
      (.ok t, ⟨s.disk, s.calls + 1⟩) := congrArg (fun r => (r, Session.mk s.disk (s.calls + 1))) h
  have hd : { w with disturbances := .none }.document task s = (.ok (.read task t), _) :=
    document_of_ok hr
  rw [shown, hd]

/-- A document is saved, or that which was there before stays. -/
theorem holds_save (hd : p (.read d.task (w.stamped d).render))
    (h : w.layout.Holds d.task p s.disk) : w.layout.Holds d.task p (w.save d s).2.disk := by
  obtain ⟨t, htext, hold⟩ := h
  have hs := w.save_saved d s
  rcases hr : w.save d s with ⟨r, s'⟩
  rw [hr] at hs
  cases r with
  | error f => exact ⟨t, hs.unchanged htext, hold⟩
  | ok e => exact ⟨_, hs.written, hd⟩

theorem holds_document (h : w.layout.Holds task p s.disk)
    (hr : w.document task s = (.ok d, s')) : p d ∧ d.task = task := by
  obtain ⟨t, htext, hold⟩ := h
  obtain ⟨t', ht', rfl⟩ := document_eq_ok hr
  rw [htext] at ht'
  cases ht'
  exact ⟨hold, Document.task_read task t⟩

theorem read_stamped (h : d.task = task) (u : Update) (w : Workspace) :
    .read task (w.stamped (u.apply d)).render = d.revised u w.now := by
  rw [Document.revised, h]
  rfl

/-- What a change that could be made has made of a document. -/
theorem updateSection_eq_ok {u : Update} (hu : Update.ofSection? name content = some u)
    (ht : s.disk.readText (w.layout.design s.disk task) = .ok t)
    (h : (w.updateSection task name content s).1 = .ok d) :
    w.shown task (w.updateSection task name content s).2 =
      .ok ((Document.read task t).revised u w.now) := by
  rw [updateSection_apply hu] at h ⊢
  obtain ⟨x, s', hr, hx⟩ := bind_eq_ok _ _ h
  obtain ⟨t', ht', rfl⟩ := document_eq_ok hr
  rw [ht] at ht'
  cases ht'
  rw [hx] at h ⊢
  have hs := w.save_saved (u.apply (.read task t)) s'
  have htask : (u.apply (.read task t)).task = task := by
    rw [Update.task_apply, Document.task_read]
  rcases hsave : w.save (u.apply (.read task t)) s' with ⟨r, s''⟩
  rw [hsave] at hs h
  cases h
  have hwritten := hs.written
  rw [htask] at hwritten
  rw [shown_of_readText hwritten, Document.revised, Document.task_read]
  rfl

theorem holds_updateSection (hp : Document.Preserved task ok p)
    (hu : ∀ u ∈ Update.ofSection? name content, ok u) (h : w.layout.Holds task p s.disk) :
    w.layout.Holds task p (w.updateSection task name content s).2.disk := by
  cases hc : Update.ofSection? name content with
  | none =>
    rw [updateSection, hc]
    exact h
  | some u =>
    rw [updateSection_apply hc]
    apply (reads_document w task).after h
    intro d s' hr hk
    obtain ⟨hd, rfl⟩ := holds_document h hr
    have hnew : p (.read (u.apply d).task (w.stamped (u.apply d)).render) := by
      rw [u.task_apply]
      exact hp.revised rfl hd (hu u hc) w.now
    rw [← hk, ← u.task_apply d] at h
    have hs := holds_save hnew h
    rwa [u.task_apply d] at hs

/-- Whether the messages of a workspace have dates that the calendar has. -/
def Dated (w : Workspace) : Prop :=
  ∀ disk task cs, w.reread disk task = .ok cs → ∀ c ∈ cs, Date.Valid c.date.date

theorem communicationsOf_eq_ok {cs : List Communication}
    (h : w.communicationsOf task s = (.ok cs, s')) : w.communications s.disk task = .ok cs := by
  have he : w.communicationsOf task s =
      ((w.communications s.disk task).mapError (.communications task), s) := rfl
  rw [he] at h
  cases hc : w.communications s.disk task with
  | error e =>
    rw [hc] at h
    cases h
  | ok cs' =>
    rw [hc] at h
    cases h
    rfl

theorem extract_eq_ok {ds : List Decision} (h : w.extract task s = (.ok ds, s')) :
    ∃ cs, w.communications s.disk task = .ok cs ∧ ds = Communication.decisions cs := by
  unfold extract at h
  obtain ⟨cs, s'', hr, hx⟩ := bind_eq_ok _ _ (congrArg Prod.fst h)
  rw [hx] at h
  cases h
  exact ⟨cs, communicationsOf_eq_ok hr, rfl⟩

theorem plain_of_extract {ds : List Decision} (hw : w.Dated)
    (h : w.asked.extract task s = (.ok ds, s')) : ∀ x ∈ ds, x.Plain := by
  obtain ⟨cs, hcs, rfl⟩ := extract_eq_ok h
  exact Communication.plain_of_mem_decisions (hw s.disk task cs hcs)

theorem holds_populate (hp : Document.Preserved task ok p) (hw : w.Dated)
    (h : w.layout.Holds task p s.disk) : w.layout.Holds task p (w.populate task s).2.disk := by
  apply (reads_document w task).after h
  intro d s₁ h₁ hk₁
  obtain ⟨hd, rfl⟩ := holds_document h h₁
  rw [← hk₁] at h
  apply (reads_communicationsOf w d.task).after h
  intro cs s₂ _ hk₂
  rw [← hk₂] at h
  apply (reads_extract w.asked d.task).after h
  intro ds s₃ h₃ hk₃
  rw [← hk₃] at h
  apply (reads_relatedAdrs w d.task).after h
  intro adrs s₄ _ hk₄
  rw [← hk₄] at h
  have hnew := hp.merged rfl hd (plain_of_extract hw h₃) (Communication.requirements cs) adrs w.now
  rw [snd_bind_pure]
  exact @holds_save s₄ p w (d.merged (Communication.requirements cs) ds adrs) hnew h

/-- A document that is there is made anew only where it is not seen. -/
theorem holds_create (hp : p (.read task (w.stamped (.scaffold task)).render))
    (h : w.layout.Holds task p s.disk) : w.layout.Holds task p (w.create task s).2.disk := by
  obtain ⟨s', hk, hc⟩ := w.create_apply task s
  rw [← hk] at h
  rw [hc, ← hk]
  cases (w.hasDesign task s).1 with
  | true => exact ((reads_document w task).keeps s').symm ▸ h
  | false =>
    obtain ⟨t, htext, -⟩ := id h
    have hdir := Layout.isDirectory_ticket htext
    rw [if_neg (by simp)]
    rcases w.disturbances.createDirectory_cases (w.layout.ticket s'.disk task) s' with
      ⟨fault, hm⟩ | hm
    · rw [bind_of_error _ _ (Work.onFile_of_error hm _ _ _)]
      exact h
    · rw [Disk.createDirectory_of_isDirectory hdir] at hm
      rw [bind_of_ok _ _ (Work.onFile_of_ok hm _ _ _)]
      exact holds_save (d := .scaffold task) hp h

/-- What a document is that is made where none was. -/
theorem holds_created (hp : p (.read task (w.stamped (.scaffold task)).render))
    (hn : (w.hasDesign task s).1 = false) (h : (w.create task s).1 = .ok d) :
    w.layout.Holds task p (w.create task s).2.disk := by
  obtain ⟨s₁, -, hc⟩ := w.create_apply task s
  rw [hc, hn, if_neg (by simp)] at h ⊢
  obtain ⟨x, s₂, -, hx⟩ := bind_eq_ok _ _ h
  rw [hx] at h ⊢
  have hsaved := w.save_saved (.scaffold task) s₂
  rcases hr : w.save (.scaffold task) s₂ with ⟨r, s₃⟩
  rw [hr] at h hsaved
  cases h
  exact ⟨_, hsaved.written, hp⟩

end Workspace

end DesignRecords
