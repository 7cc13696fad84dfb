import DesignRecords.Proofs.Document.Revision
import DesignRecords.Proofs.Workspace.Home
import DesignRecords.Proofs.Workspace.Reads

namespace DesignRecords

/-- What can be asked of the documents of a workspace. -/
inductive DocumentRequest
  | create (task : Text)
  | update (task name content : Text)
  | get (task : Text)
deriving DecidableEq

/-- The documents of tasks as plain values. -/
abbrev Records := Text → Option Document

namespace DocumentRequest

variable {l : Layout} {q : DocumentRequest} {records : Records}

def task : DocumentRequest → Text
  | create task => task
  | update task _ _ => task
  | get task => task

/-- The change that is asked for, if the name of its section is known. -/
def change? : DocumentRequest → Option Update
  | update _ name content => Update.ofSection? name content
  | _ => none

def work (w : Workspace) : DocumentRequest → Work Document
  | create task => w.create task
  | update task name content => w.updateSection task name content
  | get task => w.document task

/-- The records once a request has been met at some time. -/
def amend (now : Instant) (records : Records) (q : DocumentRequest) : Records :=
  match q, records q.task with
  | create task, none => Function.update records task (some ((Document.scaffold task).dated now))
  | update task name content, some d =>
    match Update.ofSection? name content with
    | some u => Function.update records task (some ((u.settle d).dated now))
    | none => records
  | _, _ => records

/-- Whether the tasks and the texts of a request are such as a workspace takes without failures. -/
structure Covered (l : Layout) (q : DocumentRequest) : Prop where
  names : q.task.NamesTask
  fits : l.Fits q.task
  unheaded : ∀ u ∈ q.change?, u.Unheaded

instance : Decidable (q.Covered l) :=
  decidable_of_iff (Text.NamesTask q.task ∧ l.Fits q.task ∧ ∀ u ∈ q.change?, u.Unheaded)
    ⟨fun ⟨names, fits, unheaded⟩ => ⟨names, fits, unheaded⟩,
      fun ⟨names, fits, unheaded⟩ => ⟨names, fits, unheaded⟩⟩

/-- Whether a request changes a document but leaves an overview in it that starts with a header. -/
def Buries (records : Records) (q : DocumentRequest) : Prop :=
  ∃ d ∈ records q.task, ∃ u ∈ q.change?, u.keepsOverview = true ∧
    Section.isHeader d.overview = true

instance : Decidable (q.Buries records) :=
  inferInstanceAs (Decidable (∃ d ∈ records q.task, ∃ u ∈ q.change?, u.keepsOverview = true ∧
    Section.isHeader d.overview = true))

end DocumentRequest

/-- The records once some requests have been met, each at its own time. -/
def Records.after (records : Records) : List (Instant × DocumentRequest) → Records
  | [] => records
  | (now, q) :: rest => Records.after (q.amend now records) rest

/-- Whether none of some requests buries an overview. -/
def Records.Unburied (records : Records) : List (Instant × DocumentRequest) → Prop
  | [] => True
  | (now, q) :: rest => ¬ q.Buries records ∧ Records.Unburied (q.amend now records) rest

instance Records.decidableUnburied :
    (records : Records) → (steps : List (Instant × DocumentRequest)) →
      Decidable (records.Unburied steps)
  | _, [] => .isTrue trivial
  | records, (now, q) :: rest =>
    have := decidableUnburied (q.amend now records) rest
    inferInstanceAs (Decidable (¬ q.Buries records ∧ Records.Unburied (q.amend now records) rest))

namespace Workspace

/-- The session after some requests, each met at its own time. -/
def after (w : Workspace) (s : Session) : List (Instant × DocumentRequest) → Session
  | [] => s
  | (now, q) :: rest => w.after (q.work { w with now } s).2 rest

/-- What is answered when a document is asked for that is on record. -/
def answer (w : Workspace) (task : Text) : Option Document → Except Failure Document
  | none => .error (.documentMissing task ((w.layout.tickets.entry task).entry "design.md"))
  | some d => .ok d

/-- Whether every task's document is read as it is on record. -/
def Agrees (w : Workspace) (s : Session) (records : Records) : Prop :=
  ∀ task : Text, task.NamesTask → w.layout.Fits task →
    (w.document task s).1 = w.answer task (records task)

end Workspace

/-- What stands in the directory of a task whose document is on record. -/
def Kept (d : Disk) (r : Place) (task : Text) : Option Document → Prop
  | none => d.view (home r task) = none
  | some doc => d.view (home r task) = some none ∧
    d.view (home r task ++ [("design.md.tmp" : Text)]) = none ∧
    ∃ t, d.view (home r task ++ [("design.md" : Text)]) = some (some (.text t)) ∧
      Document.read task t = doc

/-- Whether the disk holds the documents of some records. -/
structure Mirrored (l : Layout) (r : Place) (d : Disk) (records : Records) : Prop where
  rooted : l.Rooted d r
  kept : ∀ task : Text, task.NamesTask → l.Fits task → Kept d r task (records task)
  tidy : ∀ task, ∀ doc ∈ records task, doc.Tidy ∧ doc.task = task

variable {w : Workspace} {l : Layout} {d d' : Disk} {r : Place} {records : Records} {s s' : Session}
  {task other : Text} {doc : Document} {o : Option Document}

theorem Kept.confined (h : Kept d r other o) (hc : Layout.Confined d d' r task)
    (hne : other ≠ task) : Kept d' r other o := by
  have hh : ∀ ns : List Text, d'.view (home r other ++ ns) = d.view (home r other ++ ns) := by
    intro ns
    apply hc.elsewhere
    · simp [home]
    · simp [home, hne.symm]
  have hn : d'.view (home r other) = d.view (home r other) := by simpa using hh []
  cases o with
  | none => exact hn.trans h
  | some doc =>
    obtain ⟨h1, h2, t, ht, hd⟩ := h
    exact ⟨hn.trans h1, (hh _).trans h2, t, (hh _).trans ht, hd⟩

/-- A change in the directory of one task keeps the documents of all others. -/
theorem Mirrored.confined (h : Mirrored l r d records) (hc : Layout.Confined d d' r task)
    (ht : task ≠ Layout.archiveName) (hk : Kept d' r task (some doc)) (hd : doc.Tidy)
    (he : doc.task = task) : Mirrored l r d' (Function.update records task (some doc)) where
  rooted := h.rooted.confined hc ht
  kept other ho hf := by
    by_cases hne : other = task
    · subst hne
      rwa [Function.update_self]
    · rw [Function.update_of_ne hne]
      exact (h.kept other ho hf).confined hc hne
  tidy other x hx := by
    by_cases hne : other = task
    · subst hne
      rw [Function.update_self, Option.mem_some_iff] at hx
      subst hx
      exact ⟨hd, he⟩
    · rw [Function.update_of_ne hne] at hx
      exact h.tidy other x hx

/-- Where the disk stays as it is, so do the records. -/
theorem Mirrored.same (h : Mirrored l r d records) (hd : d' = d) : Mirrored l r d' records := hd ▸ h

/-- Nothing is on record in an empty workspace. -/
theorem mirrored_of_bare (h : l.Bare d r) : Mirrored l r d fun _ => none := by
  obtain ⟨hl, he⟩ := h
  have hv : d.view r = some none := Disk.view_eq_directory.mpr ⟨[], he⟩
  have hs : d.view (shelf r) = none := by
    have hb : d.lookup? (r ++ [("tickets" : Text)]) =
        (d.lookup? r).bind (Entry.below? [("tickets" : Text)]) := Entry.below?_append
    rw [Disk.view, shelf, hb, he]
    rfl
  have hh : ∀ task, d.view (home r task) = none := fun task =>
    Disk.view_append (by simp [hs]) (by simp)
  exact ⟨⟨hl, hv, Or.inl hs, hh _⟩, fun task _ _ => hh task,
    fun _ _ h => by cases h⟩

namespace Workspace

theorem readText_apply (hn : w.disturbances = .none) (p : Path) (s : Session) :
    w.disturbances.readText p s = (s.disk.readText p, ⟨s.disk, s.calls + 1⟩) := by
  rw [hn]
  rfl

/-- A document that is asked for is answered as it stands in the directory of its task. -/
theorem document_kept (hn : w.disturbances = .none) (h : w.layout.Rooted s.disk r)
    (ht : task.NamesTask) (hf : w.layout.Fits task) (hk : Kept s.disk r task o) :
    w.document task s = (w.answer task o, ⟨s.disk, s.calls + 1⟩) := by
  have hr := readText_apply hn (w.layout.design s.disk task) s
  have hp := h.design ht.name
  cases o with
  | none =>
    have hm := Disk.readText_of_locate_error (h.locate_missing ht.name hf hk)
    rw [← hp] at hm
    rw [hm] at hr
    rw [document_of_error hr, hp]
    rfl
  | some doc =>
    obtain ⟨h1, -, t, ht', hd⟩ := hk
    have hl := h.locate_design ht.name hf h1
    rw [← hp] at hl
    rw [Disk.readText_eq_ok.mpr ⟨_, hl, ht'⟩] at hr
    rw [document_of_ok hr, hd]
    rfl

theorem hasDesign_apply (hn : w.disturbances = .none) (task : Text) (s : Session) :
    (w.hasDesign task s).1 = (s.disk.exists? (w.layout.design s.disk task) &&
      !s.disk.isDirectory (w.layout.design s.disk task)) := by
  have he : w.disturbances.exists? (w.layout.design s.disk task) s =
      (s.disk.exists? (w.layout.design s.disk task), ⟨s.disk, s.calls + 1⟩) := by
    rw [hn]
    rfl
  have hd : w.disturbances.isDirectory (w.layout.design s.disk task) ⟨s.disk, s.calls + 1⟩ =
      (s.disk.isDirectory (w.layout.design s.disk task), ⟨s.disk, s.calls + 1 + 1⟩) := by
    rw [hn]
    rfl
  have hh : w.hasDesign task s = (do
      if !(← w.disturbances.exists? (w.layout.design s.disk task)) then return false
      return !(← w.disturbances.isDirectory (w.layout.design s.disk task)) :
        StateM Session Bool) s := rfl
  rw [hh]
  simp only [bind, StateT.bind, he]
  cases s.disk.exists? (w.layout.design s.disk task) with
  | false => rfl
  | true =>
    simp only [Bool.not_true, Bool.false_eq_true, if_false, StateT.bind, hd]
    rfl

theorem hasDesign_kept (hn : w.disturbances = .none)
    (h : w.layout.Rooted s.disk r) (ht : task.NamesTask) (hf : w.layout.Fits task)
    (hk : Kept s.disk r task o) : (w.hasDesign task s).1 = o.isSome := by
  rw [hasDesign_apply hn, h.design ht.name, Disk.exists?, Disk.isDirectory]
  cases o with
  | none =>
    rw [Disk.find_of_locate_error (h.locate_missing ht.name hf hk)]
    rfl
  | some doc =>
    obtain ⟨h1, -, t, ht', -⟩ := hk
    have hl := h.locate_design ht.name hf h1
    rw [Disk.find_eq_ok.mpr ⟨hl, Disk.view_eq_file.mp ht'⟩]
    rfl

/-- A document is saved in the directory of its task. -/
theorem save_rooted (hn : w.disturbances = .none) (h : w.layout.Rooted s.disk r)
    (ht : doc.task.NamesTask) (hf : w.layout.Fits doc.task)
    (hh : s.disk.view (home r doc.task) = some none)
    (hp : s.disk.view (home r doc.task ++ [("design.md.tmp" : Text)]) = none)
    (hg : s.disk.view (home r doc.task ++ [("design.md" : Text)]) ≠ some none) :
    ∃ s', w.save doc s = (.ok (w.stamped doc), s') ∧
      Layout.Confined s.disk s'.disk r doc.task ∧
      Kept s'.disk r doc.task (some (.read doc.task (w.stamped doc).render)) := by
  have hpv : s.disk.view (home r doc.task ++ [("design.md.tmp" : Text)]) ≠ some none := by
    rw [hp]
    simp
  have hlp := h.locate_staging ht.name hf hh
  have hlg := h.locate_design ht.name hf hh
  rw [← h.stagingOf ht.name] at hlp
  rw [← h.design ht.name] at hlg
  obtain ⟨s', hs, hc, hv⟩ := save_of_undisturbed hn hlp hlg hpv hg
  have hconf := Layout.confined_saved hh hpv hg hc hv
  have hne : home r doc.task ++ [("design.md.tmp" : Text)] ≠
      home r doc.task ++ [("design.md" : Text)] := Layout.place_ne_goal hlp hlg
  refine ⟨s', hs, hconf, hconf.holds.directory _ hh, ?_, _, ?_, rfl⟩
  · rw [hv, Function.update_of_ne hne, Function.update_self]
  · rw [hv, Function.update_self]

theorem amend_update {u : Update} {name content : Text} {now : Instant}
    (hr : records task = some doc) (hu : Update.ofSection? name content = some u) :
    DocumentRequest.amend now records (.update task name content) =
      Function.update records task (some ((u.settle doc).dated now)) := by
  simp only [DocumentRequest.amend, DocumentRequest.task, hr, hu]

/-- A change of a document on record is written in full, whatever is read back. -/
theorem updateSection_rooted {u : Update} {name content : Text} (hn : w.disturbances = .none)
    (h : w.layout.Rooted s.disk r) (ht : task.NamesTask) (hf : w.layout.Fits task)
    (hu : Update.ofSection? name content = some u) (hk : Kept s.disk r task (some doc)) :
    ∃ s', w.updateSection task name content s = (.ok (w.stamped (u.apply doc)), s') ∧
      Layout.Confined s.disk s'.disk r task ∧
      Kept s'.disk r task (some (.read task (w.stamped (u.apply doc)).render)) := by
  have hd := document_kept hn h ht hf hk
  obtain ⟨hh, hp, t, hg, hread⟩ := hk
  have he : (u.apply doc).task = task := by rw [Update.task_apply, ← hread, Document.task_read]
  have hs := @save_rooted w r ⟨s.disk, s.calls + 1⟩ (u.apply doc) hn h (he.symm ▸ ht)
    (he.symm ▸ hf) (he.symm ▸ hh) (he.symm ▸ hp) (by rw [he, hg]; simp)
  obtain ⟨s', hs, hc, hk⟩ := hs
  rw [he] at hc hk
  rw [updateSection_apply hu]
  exact ⟨s', (bind_of_ok _ _ hd _).trans hs, hc, hk⟩

/-- A document is made where none is on record. -/
theorem create_rooted (hn : w.disturbances = .none) (h : w.layout.Rooted s.disk r)
    (ht : task.NamesTask) (hf : w.layout.Fits task) (hk : Kept s.disk r task none) :
    Layout.Confined s.disk (w.create task s).2.disk r task ∧
      Kept (w.create task s).2.disk r task
        (some (.read task (w.stamped (.scaffold task)).render)) := by
  have hd : (w.hasDesign task s).1 = false := hasDesign_kept hn h ht hf hk
  obtain ⟨s₁, hsame, hcreate⟩ := w.create_apply task s
  obtain ⟨d₁, hmade, hconf, hh, hempty⟩ := h.createDirectory ht hf hk
  have hm : w.disturbances.createDirectory (w.layout.ticket s.disk task) s₁ =
      (.ok (), ⟨d₁, s₁.calls + 1⟩) := by
    have he : s₁.disk.createDirectory (w.layout.ticket s.disk task) = (.ok (), d₁) := by
      rw [hsame, h.ticket ht.name, hmade]
    rw [hn]
    change ((s₁.disk.createDirectory _).1, Session.mk (s₁.disk.createDirectory _).2 _) = _
    rw [he]
  have hg : d₁.view (home r task ++ [("design.md" : Text)]) ≠ some none := by
    rw [hempty]
    simp
  obtain ⟨s', hs', hconf', hk'⟩ := @save_rooted w r ⟨d₁, s₁.calls + 1⟩ (.scaffold task) hn
    (h.confined hconf ht.free) ht hf hh (hempty _) hg
  have hc : w.create task s = w.save (.scaffold task) ⟨d₁, s₁.calls + 1⟩ := by
    rw [hcreate, hd]
    exact bind_of_ok _ _ (Work.onFile_of_ok hm _ _ _) _
  rw [hc, hs']
  exact ⟨hconf.trans hconf', hk'⟩

/-- Nothing is made where a document is on record. -/
theorem create_kept (hn : w.disturbances = .none) (h : w.layout.Rooted s.disk r)
    (ht : task.NamesTask) (hf : w.layout.Fits task) (hk : Kept s.disk r task (some doc)) :
    (w.create task s).2.disk = s.disk := by
  have hd : (w.hasDesign task s).1 = true := hasDesign_kept hn h ht hf hk
  obtain ⟨s₁, hsame, hcreate⟩ := w.create_apply task s
  rw [hcreate, hd]
  exact ((reads_document w task).keeps s₁).trans hsame

/-- Nothing is written where there is no document to change, or no such section. -/
theorem updateSection_kept {name content : Text} (hn : w.disturbances = .none)
    (h : w.layout.Rooted s.disk r) (ht : task.NamesTask) (hf : w.layout.Fits task)
    (hk : Kept s.disk r task o) (ho : o = none ∨ Update.ofSection? name content = none) :
    (w.updateSection task name content s).2.disk = s.disk := by
  cases hu : Update.ofSection? name content with
  | none =>
    rw [updateSection, hu]
    rfl
  | some u =>
    have ho : o = none := by simpa [hu] using ho
    subst ho
    rw [updateSection_apply hu, bind_of_error _ _ (document_kept hn h ht hf hk)]

theorem create_mirrored (hn : w.disturbances = .none) (h : Mirrored w.layout r s.disk records)
    (ht : task.NamesTask) (hf : w.layout.Fits task) (hi : w.now.Shown) :
    Mirrored w.layout r (w.create task s).2.disk
      (DocumentRequest.amend w.now records (.create task)) := by
  have hk := h.kept task ht hf
  cases hr : records task with
  | none =>
    have ha : DocumentRequest.amend w.now records (.create task) =
        Function.update records task (some ((Document.scaffold task).dated w.now)) := by
      simp only [DocumentRequest.amend, DocumentRequest.task, hr]
    have hs := Document.tidy_scaffold ht.solid ht.trimmed ht.single
    have hread : Document.read task (w.stamped (.scaffold task)).render =
        (Document.scaffold task).dated w.now := hs.read_render_dated rfl hi
    rw [hr] at hk
    obtain ⟨hconf, hk⟩ := create_rooted hn h.rooted ht hf hk
    rw [hread] at hk
    rw [ha]
    exact h.confined hconf ht.free hk (hs.dated w.now) rfl
  | some doc =>
    have ha : DocumentRequest.amend w.now records (.create task) = records := by
      simp only [DocumentRequest.amend, DocumentRequest.task, hr]
    rw [hr] at hk
    rw [ha]
    exact h.same (create_kept hn h.rooted ht hf hk)

theorem updateSection_mirrored {name content : Text} (hn : w.disturbances = .none)
    (h : Mirrored w.layout r s.disk records) (ht : task.NamesTask) (hf : w.layout.Fits task)
    (hi : w.now.Shown) (hu : ∀ u ∈ Update.ofSection? name content, u.Unheaded)
    (hb : ¬ (DocumentRequest.update task name content).Buries records) :
    Mirrored w.layout r (w.updateSection task name content s).2.disk
      (DocumentRequest.amend w.now records (.update task name content)) := by
  have hk := h.kept task ht hf
  have hsame : records task = none ∨ Update.ofSection? name content = none →
      Mirrored w.layout r (w.updateSection task name content s).2.disk
        (DocumentRequest.amend w.now records (.update task name content)) := by
    intro ho
    have ha : DocumentRequest.amend w.now records (.update task name content) = records := by
      rcases ho with ho | ho
      · simp only [DocumentRequest.amend, DocumentRequest.task, ho]
      · cases hr : records task <;> simp only [DocumentRequest.amend, DocumentRequest.task, hr, ho]
    rw [ha]
    exact h.same (updateSection_kept hn h.rooted ht hf hk ho)
  cases hr : records task with
  | none => exact hsame (Or.inl hr)
  | some doc =>
    cases hc : Update.ofSection? name content with
    | none => exact hsame (Or.inr hc)
    | some u =>
      obtain ⟨hd, he⟩ := h.tidy task doc hr
      have ho : u.keepsOverview = true → Section.isHeader doc.overview = false := by
        intro hkeep
        rw [← Bool.not_eq_true]
        exact fun hh => hb ⟨doc, hr, u, hc, hkeep, hh⟩
      have hread : Document.read doc.task (w.stamped (u.apply doc)).render =
          (u.settle doc).dated w.now := hd.read_render (hu u hc) hi ho
      rw [hr] at hk
      obtain ⟨s', hs, hconf, hk⟩ := updateSection_rooted hn h.rooted ht hf hc hk
      rw [he] at hread
      rw [hread] at hk
      rw [amend_update hr hc, hs]
      exact h.confined hconf ht.free hk ((hd.settle (hu u hc)).dated w.now)
        ((Update.task_settle u doc).trans he)

/-- A request that buries no overview keeps the disk in step with the records. -/
theorem work_mirrored {q : DocumentRequest} (hn : w.disturbances = .none)
    (h : Mirrored w.layout r s.disk records) (hq : q.Covered w.layout) (hi : w.now.Shown)
    (hb : ¬ q.Buries records) :
    Mirrored w.layout r (q.work w s).2.disk (q.amend w.now records) := by
  cases q with
  | create task => exact create_mirrored hn h hq.names hq.fits hi
  | update task name content =>
    exact updateSection_mirrored hn h hq.names hq.fits hi hq.unheaded hb
  | get task => exact h.same ((reads_document w task).keeps s)

/-- A request that buries an overview puts the disk out of step with the records. -/
theorem not_agrees_of_buries {q : DocumentRequest} (hn : w.disturbances = .none)
    (h : Mirrored w.layout r s.disk records) (hq : q.Covered w.layout) (hb : q.Buries records) :
    ¬ w.Agrees (q.work w s).2 (q.amend w.now records) := by
  obtain ⟨ht, hf, -⟩ := hq
  obtain ⟨doc, hr, u, hc, hkeep, ho⟩ := hb
  cases q with
  | create task => cases hc
  | get task => cases hc
  | update task name content =>
    have ht : task.NamesTask := ht
    have hf : w.layout.Fits task := hf
    have hr : records task = some doc := hr
    obtain ⟨hd, he⟩ := h.tidy task doc hr
    have hk := h.kept task ht hf
    rw [hr] at hk
    obtain ⟨s', hs, hconf, hk⟩ := updateSection_rooted hn h.rooted ht hf hc hk
    have hdoc := document_kept hn (h.rooted.confined hconf ht.free) ht hf hk
    intro hagree
    have hread : (w.document task (w.updateSection task name content s).2).1 =
        w.answer task (DocumentRequest.amend w.now records (.update task name content) task) :=
      hagree task ht hf
    rw [hs, hdoc, amend_update hr hc, Function.update_self] at hread
    have hne : Document.read doc.task (w.stamped (u.apply doc)).render ≠
        (u.settle doc).dated w.now := hd.read_render_ne hkeep ho w.now w.now
    rw [he] at hne
    exact hne (Except.ok.inj hread)

theorem agrees_of_mirrored (hn : w.disturbances = .none)
    (h : Mirrored w.layout r s.disk records) : w.Agrees s records := by
  intro task ht hf
  rw [document_kept hn h.rooted ht hf (h.kept task ht hf)]

/-- From where they are in step, the disk and the records stay so for as long as no overview is
buried, and no longer. -/
theorem agrees_iff_of_mirrored {steps : List (Instant × DocumentRequest)}
    (hn : w.disturbances = .none) (h : Mirrored w.layout r s.disk records)
    (hs : ∀ x ∈ steps, x.1.Shown ∧ x.2.Covered w.layout) :
    (∀ front, front <+: steps → w.Agrees (w.after s front) (Records.after records front)) ↔
      Records.Unburied records steps := by
  induction steps generalizing s records with
  | nil =>
    refine ⟨fun _ => trivial, fun _ front hf => ?_⟩
    rw [List.prefix_nil.mp hf]
    exact agrees_of_mirrored hn h
  | cons x rest ih =>
    obtain ⟨now, q⟩ := x
    obtain ⟨hi, hq⟩ := hs (now, q) (by simp)
    have hrest : ∀ x ∈ rest, x.1.Shown ∧ x.2.Covered w.layout := fun x hx => hs x (by simp [hx])
    by_cases hb : q.Buries records
    · have hnot : ¬ w.Agrees (q.work { w with now } s).2 (q.amend now records) :=
        @not_agrees_of_buries { w with now } r records s q hn h hq hb
      refine ⟨fun hall => absurd (hall [(now, q)] ?_) hnot, fun hu => absurd hb hu.1⟩
      exact List.prefix_append [(now, q)] rest
    · have hm : Mirrored w.layout r (q.work { w with now } s).2.disk (q.amend now records) :=
        @work_mirrored { w with now } r records s q hn h hq hi hb
      have hi := ih hm hrest
      constructor
      · intro hall
        refine ⟨hb, hi.mp fun front hf => ?_⟩
        exact hall ((now, q) :: front) (List.cons_prefix_cons.mpr ⟨rfl, hf⟩)
      · rintro ⟨-, hu⟩ front hf
        cases front with
        | nil => exact agrees_of_mirrored hn h
        | cons y front =>
          obtain ⟨rfl, hrest⟩ := List.cons_prefix_cons.mp hf
          exact hi.mpr hu front hrest

/-- A workspace that starts empty is a store of plain values, one for each task, for as long as no
request leaves an overview in its document that starts with a header, and no longer. -/
theorem agrees_iff_unburied {steps : List (Instant × DocumentRequest)} (hn : w.disturbances = .none)
    (h : w.layout.Bare s.disk r)
    (hs : ∀ x ∈ steps, x.1.Shown ∧ x.2.Covered w.layout) :
    (∀ front, front <+: steps →
      w.Agrees (w.after s front) (Records.after (fun _ => none) front)) ↔
      Records.Unburied (fun _ => none) steps :=
  agrees_iff_of_mirrored hn (mirrored_of_bare h) hs

/-- A workspace at noon in an empty directory. -/
def sample : Workspace :=
  { layout := ⟨⟨"ws"⟩⟩
    thresholds := .standard
    now := ⟨⟨2026, 3, 1⟩, 43200, 0⟩
    communications := fun _ _ => .ok []
    disturbances := .none }

def sampleSession : Session := ⟨⟨[("ws", .directory [])], []⟩, 0⟩

/-- Two tasks at a time, in the leap second of a year and after it. -/
def sampleRun : List (Instant × DocumentRequest) :=
  [(⟨⟨2016, 12, 31⟩, 86399, 1500000000⟩, .update "a" "overview" "x"),
    (⟨⟨2016, 12, 31⟩, 86399, 1500000000⟩, .create "a"),
    (⟨⟨2017, 1, 1⟩, 0, 7⟩, .create "b"),
    (⟨⟨2017, 1, 1⟩, 1, 0⟩, .update "a" " Overview " "```\n ## x"),
    (⟨⟨2017, 1, 1⟩, 1, 0⟩, .update "b" "DECISIONS" " a|b\nc "),
    (⟨⟨2017, 1, 1⟩, 1, 0⟩, .update "a" "decisions" "\n"),
    (⟨⟨2017, 1, 1⟩, 2, 0⟩, .update "a" "components" "\n"),
    (⟨⟨2017, 1, 1⟩, 2, 0⟩, .get "b"),
    (⟨⟨2017, 1, 1⟩, 2, 0⟩, .update "b" "goals" "x"),
    (⟨⟨2017, 1, 1⟩, 3, 0⟩, .create "a")]

theorem agrees_sampleRun :
    (∀ front, front <+: sampleRun →
      sample.Agrees (sample.after sampleSession front) (Records.after (fun _ => none) front)) ∧
    Records.after (fun _ => none) sampleRun "b" =
      some { Document.scaffold "b" with
        decisions := [.stated "a|b c"]
        updated := some ⟨⟨2017, 1, 1⟩, 1, 0⟩ } :=
  ⟨(agrees_iff_unburied rfl ⟨rfl, rfl⟩ (by decide +kernel)).mpr (by decide +kernel),
    by decide +kernel⟩

/-- An overview that is indented like code, and a decision after it. -/
def buryingRun : List (Instant × DocumentRequest) :=
  [(sample.now, .create "T-1"), (sample.now, .update "T-1" "overview" " ## Architecture"),
    (sample.now, .update "T-1" "decisions" "x")]

/-- The overview of a document that nobody changed is lost. -/
theorem document_buryingRun :
    (∀ x ∈ buryingRun, x.1.Shown ∧ x.2.Covered sample.layout) ∧
    Records.after (fun _ => none) buryingRun "T-1" =
      some { Document.scaffold "T-1" with
        overview := "## Architecture"
        decisions := [.stated "x"]
        updated := some sample.now } ∧
    (sample.document "T-1" (sample.after sampleSession buryingRun)).1 =
      .ok { Document.scaffold "T-1" with
        overview := []
        architecture := []
        decisions := [.stated "x"]
        updated := some sample.now } := by
  decide +kernel

end Workspace

end DesignRecords
