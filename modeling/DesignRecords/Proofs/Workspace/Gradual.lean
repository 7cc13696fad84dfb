import DesignRecords.Proofs.Adr.Shared
import DesignRecords.Proofs.Document.Fixed
import DesignRecords.Proofs.Workspace.Populate

namespace DesignRecords

variable {w : Workspace} {d : Disk} {l : Layout} {doc e : Document} {s s' : Session}
  {task n t : Text} {place q : Place}

namespace Layout

theorem stagingOf_eq (l : Layout) (d : Disk) (ht : Path.IsName task) :
    l.stagingOf d task = (l.ticket d task).entry "design.md.tmp" := by
  have hparent : ((l.ticket d task).entry "design.md").parent? = some (l.ticket d task) := by
    rcases l.ticket_cases d task with h | h <;> rw [h, Path.parent?_entry ht isName_design]
  rw [stagingOf, design, staging, Path.sibling, hparent]
  rfl

/-- Whether the file in which a task's document is written first can be written. -/
def Writable (l : Layout) (d : Disk) (task : Text) : Prop :=
  ∃ place, d.locate (l.stagingOf d task) = .ok place ∧ d.view place ≠ some none

/-- The files of a task do not stand among the decision records. -/
theorem place_ne_record (ht : Path.IsName task) (hn : Path.IsName n) {m : Text}
    (hp : d.locate ((l.ticket d task).entry n) = .ok place)
    (hq : d.locate l.decisions = .ok q) : place ≠ q ++ [m] := by
  have hdocs : ∀ m ∈ [("docs" : Text), "decisions"], Path.IsName m := by decide
  have hreach : d.reach (l.root.within ["docs", "decisions"]) = .ok q := Disk.reach_of_locate hq
  obtain ⟨r, hr, rfl⟩ := Disk.reach_within hdocs hreach
  have hapart : ∀ names : List Text, (∀ m ∈ names, Path.IsName m) →
      names.head? ≠ some ("docs" : Text) → d.reach (l.root.within names) = .ok place →
      place ≠ r ++ [("docs" : Text), "decisions"] ++ [m] := by
    intro names hnames hhead hplace he
    obtain ⟨r', hr', rfl⟩ := Disk.reach_within hnames hplace
    rw [hr] at hr'
    cases hr'
    rw [List.append_assoc] at he
    rw [List.append_cancel_left he] at hhead
    exact hhead rfl
  have hplace := Disk.reach_of_locate hp
  rcases l.ticket_cases d task with h | h
  · rw [h] at hplace
    refine hapart ["tickets", task, n] ?_ (fun h => absurd (Option.some.inj h) (by decide)) hplace
    simpa using ⟨isName_tickets, ht, hn⟩
  · rw [h] at hplace
    refine hapart ["tickets", archiveName, task, n] ?_
      (fun h => absurd (Option.some.inj h) (by decide)) hplace
    simpa using ⟨isName_tickets, isName_archive, ht, hn⟩

end Layout

namespace Workspace

/-- The decision records stay as they are when a document is saved. -/
theorem Saved.shares (h : Saved w doc s (.ok e, s')) (ht : Path.IsName doc.task) :
    s.disk.Shares s'.disk w.layout.decisions := by
  obtain ⟨place, goal, hp, hg, -, hv⟩ := h.view
  rw [Layout.stagingOf_eq _ _ ht] at hp
  refine ⟨h.holds, h.holds_back, fun q n hq => ?_⟩
  have hplace := Layout.place_ne_record (m := n) ht Layout.isName_staging hp hq
  have hgoal := Layout.place_ne_record (m := n) ht Layout.isName_design hg hq
  rw [hv, Function.update_of_ne hgoal.symm, Function.update_of_ne hplace.symm]

theorem Saved.writable (h : Saved w doc s (.ok e, s')) : w.layout.Writable s'.disk doc.task := by
  obtain ⟨place, goal, hp, hg, -, hv⟩ := h.view
  refine ⟨place, ?_, ?_⟩
  · rw [Layout.stagingOf, h.design]
    exact h.holds.locate hp
  · rw [hv, Function.update_of_ne (Layout.place_ne_goal hp hg), Function.update_self]
    simp

variable {m : Document} {cs cs' : List Communication} {adrs : List Text}

/-- A document that is there is saved where it can be written beside itself. -/
theorem save_of_writable (hn : w.disturbances = .none)
    (ht : s.disk.readText (w.layout.design s.disk m.task) = .ok t)
    (hw : w.layout.Writable s.disk m.task) : ∃ s', w.save m s = (.ok (w.stamped m), s') := by
  obtain ⟨place, hp, hv⟩ := hw
  obtain ⟨goal, hg, hgv⟩ := Disk.readText_eq_ok.mp ht
  obtain ⟨s', hs, -⟩ := save_of_undisturbed hn hp hg hv (by rw [hgv]; simp)
  exact ⟨s', hs⟩

theorem save_of_not_writable (hw : ¬ w.layout.Writable s.disk m.task) :
    ∃ f n, w.save m s = (.error f, ⟨s.disk, n⟩) := by
  have hs := w.save_saved m s
  generalize hr : w.save m s = r at hs
  cases hs with
  | unwritten fault s' same cause =>
    obtain ⟨disk, n⟩ := s'
    cases same
    exact ⟨_, n, rfl⟩
  | left fault s' place located written cause disturbed =>
    exact absurd ⟨place, located, written.file⟩ hw
  | withdrawn fault s' place mid located written cause removed =>
    exact absurd ⟨place, located, written.file⟩ hw
  | replaced s' place goal mid gone located aimed written removed placed =>
    exact absurd ⟨place, located, written.file⟩ hw

/-- What is left behind when a document has been populated and what came of it is `m`. -/
structure Populated (w : Workspace) (task : Text) (m : Document) (s s' : Session) : Prop where
  written : s'.disk.readText (w.layout.design s'.disk task) = .ok (w.stamped m).render
  read : Document.read task (w.stamped m).render = (w.stamped m).reread
  records : s.disk.Shares s'.disk w.layout.decisions
  writable : w.layout.Writable s'.disk task

theorem Populated.document (h : Populated w task m s s') (hn : w.disturbances = .none) :
    (w.document task s').1 = .ok (w.stamped m).reread := by
  rw [(answers_document_ok hn h.written).result, h.read]

section

variable (hn : w.disturbances = .none)
  (ht : s.disk.readText (w.layout.design s.disk task) = .ok t)
  (hc : w.communications s.disk task = .ok cs) (hr : w.reread s.disk task = .ok cs)
  (ha : Answers (w.relatedAdrs task) s.disk (.ok adrs))

include hn ht hc hr ha

theorem populated_of_writable (hname : Path.IsName task) (hhead : task.Headless)
    (hw : w.layout.Writable s.disk task)
    (hm : (Document.read task t).merged (Communication.requirements cs)
      (Communication.decisions cs) adrs = m) (hsound : m.Sound) :
    Populated w task m s (w.populate task s).2 := by
  have htask : m.task = task := by rw [← hm]; exact Document.task_read task t
  obtain ⟨n, hp⟩ := populate_apply hn ht hc hr ha s.calls
  rw [hm] at hp
  subst htask
  obtain ⟨s', hs⟩ := @save_of_writable w ⟨s.disk, n⟩ t m hn ht hw
  have hsaved := w.save_saved m ⟨s.disk, n⟩
  have hpop : w.populate m.task s = (.ok (.between (.read m.task t) m), s') :=
    hp.trans (bind_of_ok _ _ hs _)
  rw [hs] at hsaved
  rw [hpop]
  exact ⟨hsaved.written, (hsound.updated (some w.now)).read_render hhead, hsaved.shares hname,
    hsaved.writable⟩

theorem populate_keeps (hw : ¬ w.layout.Writable s.disk task) :
    (w.populate task s).2.disk = s.disk := by
  obtain ⟨n, hp⟩ := populate_apply hn ht hc hr ha s.calls
  generalize hm : (Document.read task t).merged (Communication.requirements cs)
    (Communication.decisions cs) adrs = m at hp
  have htask : m.task = task := by rw [← hm]; exact Document.task_read task t
  obtain ⟨f, n', hs⟩ := @save_of_not_writable w ⟨s.disk, n⟩ m (htask ▸ hw)
  have hpop : w.populate task s = (.error f, ⟨s.disk, n'⟩) := hp.trans (bind_of_error _ _ hs _)
  rw [hpop]

end

/-- A workspace at a time at which there are some messages for each task. -/
def telling (w : Workspace) (cs : List Communication) (now : Instant) : Workspace :=
  { w with now := now, communications := fun _ _ => .ok cs, reread := fun _ _ => .ok cs }

theorem document_of_same {s' : Session} (hn : w.disturbances = .none)
    (hs : s.disk.readText (w.layout.design s.disk task) = .ok t) (he : s'.disk = s.disk) :
    (w.document task s').1 = .ok (.read task t) := by
  rw [← he] at hs
  exact (answers_document_ok hn hs).result

theorem requirements_append (cs cs' : List Communication) :
    Communication.requirements (cs ++ cs') =
      Communication.requirements cs ++ Communication.requirements cs' := by
  simp [Communication.requirements]

theorem decisions_append (cs cs' : List Communication) :
    Communication.decisions (cs ++ cs') =
      Communication.decisions cs ++ Communication.decisions cs' := by
  simp [Communication.decisions]

/-- A document without headers that is populated twice, with more messages the second time, says
what it says when it is populated with all of them at once. -/
theorem agrees_populate_append (hn : w.disturbances = .none) (hd : s.disk.Named)
    (hname : Path.IsName task) (hsingle : task.Single)
    (hs : s.disk.readText (w.layout.design s.disk task) = .ok doc.render)
    (hdoc : Document.read task doc.render = doc) (hu : doc.Unheaded)
    (hdates : ∀ c ∈ cs ++ cs', c.date.date.Valid) (i j k : Instant) :
    ∃ twice once,
      (w.document task ((w.telling (cs ++ cs') j).populate task
        ((w.telling cs i).populate task s).2).2).1 = .ok twice ∧
      (w.document task ((w.telling (cs ++ cs') k).populate task s).2).1 = .ok once ∧
      twice.Agrees once := by
  have htask : doc.task = task := by rw [← hdoc, Document.task_read]
  subst htask
  obtain ⟨-, adrs, ha, -⟩ := (finds_relatedAdrs (d := s.disk) hn doc.task).resolve_right (by simp)
  by_cases hw : w.layout.Writable s.disk doc.task
  · have hhead := Text.headless_of_single hsingle
    have hstable := Document.stable_of_read_render hdoc hhead hu
    have hplain := Communication.plain_of_mem_decisions hdates
    have hsound₁ := hstable.sound_merged (Communication.requirements cs) adrs
      (Communication.plain_of_mem_decisions fun c hc => hdates c (List.mem_append_left cs' hc))
    have h₁ := populated_of_writable (w := w.telling cs i) hn hs rfl rfl ha hname hhead hw
      (by rw [hdoc]) hsound₁
    generalize ((w.telling cs i).populate doc.task s).2 = s₁ at h₁ ⊢
    have ha₁ := (matches_relatedAdrs_of_shares hn hd h₁.records doc.task).answers ha
    generalize he : ((w.telling cs i).stamped (doc.merged (Communication.requirements cs)
      (Communication.decisions cs) adrs)).reread = e at h₁
    have hsound₂ : (e.merged (Communication.requirements (cs ++ cs'))
        (Communication.decisions (cs ++ cs')) adrs).Sound := by
      rw [← he]
      exact ((hsound₁.updated (some i)).stable_reread).sound_merged _ _ hplain
    have h₂ := populated_of_writable (w := w.telling (cs ++ cs') j) hn h₁.written rfl rfl ha₁ hname
      hhead h₁.writable (by rw [h₁.read, he]) hsound₂
    have h₃ := populated_of_writable (w := w.telling (cs ++ cs') k) hn hs rfl rfl ha hname hhead hw
      (by rw [hdoc]) (hstable.sound_merged _ adrs hplain)
    refine ⟨_, _, h₂.document hn, h₃.document hn, ?_⟩
    rw [requirements_append, decisions_append]
    exact hstable.sound.agrees_merged_append he.symm (some j) (some k)
  · have h₁ := populate_keeps (w := w.telling cs i) hn hs rfl rfl ha hw
    generalize ((w.telling cs i).populate doc.task s).2 = s₁ at h₁ ⊢
    have hs₁ := hs
    have hw₁ := hw
    have ha₁ := ha
    rw [← h₁] at hs₁ hw₁ ha₁
    have h₂ := populate_keeps (w := w.telling (cs ++ cs') j) hn hs₁ rfl rfl ha₁ hw₁
    have h₃ := populate_keeps (w := w.telling (cs ++ cs') k) hn hs rfl rfl ha hw
    exact ⟨_, _, document_of_same hn hs (h₂.trans h₁), document_of_same hn hs h₃,
      Document.agrees_refl _⟩

/-- Messages of which the first says, with other blanks, what one of `sampleMessages` says. -/
def laterMessages : List Communication :=
  [message .requirement " Keep the logs", message .decision "a|c"]

theorem agrees_populate_append_laterMessages :
    let all := sampleMessages ++ laterMessages
    let first := (sample.telling sampleMessages ⟨⟨2026, 3, 1⟩, 0, 0⟩).populate "T-1" talkingSession
    let second := (sample.telling all ⟨⟨2026, 3, 2⟩, 0, 0⟩).populate "T-1" first.2
    let batch := (sample.telling all ⟨⟨2026, 3, 3⟩, 0, 0⟩).populate "T-1" talkingSession
    first.1 = .ok ⟨1, 1, 1⟩ ∧ second.1 = .ok ⟨0, 1, 0⟩ ∧ batch.1 = .ok ⟨1, 2, 1⟩ ∧
      ∃ twice once, (sample.document "T-1" second.2).1 = .ok twice ∧
        (sample.document "T-1" batch.2).1 = .ok once ∧ twice.Agrees once := by
  have hnamed : talkingSession.disk.Named := Disk.named_of_places (by decide +kernel)
  have hread : talkingSession.disk.readText (sample.layout.design talkingSession.disk "T-1") =
      .ok { Document.scaffold "T-1" with updated := some sample.now }.render := by decide +kernel
  have hdoc : Document.read "T-1"
      { Document.scaffold "T-1" with updated := some sample.now }.render =
        { Document.scaffold "T-1" with updated := some sample.now } := by decide +kernel
  have hdates : ∀ c ∈ sampleMessages ++ laterMessages,
      Date.ofParts? c.date.date.year c.date.date.month c.date.date.day = some c.date.date := by
    decide +kernel
  refine ⟨by decide +kernel, by decide +kernel, by decide +kernel, ?_⟩
  exact agrees_populate_append rfl hnamed (by decide) (by decide) hread hdoc
    ⟨by decide, by decide⟩ hdates _ _ _

end Workspace

end DesignRecords
