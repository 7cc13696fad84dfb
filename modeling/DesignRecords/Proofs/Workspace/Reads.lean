import DesignRecords.Proofs.Workspace.Run
import DesignRecords.Proofs.Disk.Walk

namespace DesignRecords

/-- Whether a failure does not come from writing a document. -/
def Failure.NotWriting (f : Failure) : Prop :=
  ∀ task path fault, f ≠ .file "write design document" task path fault

/-- Whether some work only reads: it leaves the disk as it is, and its failures are not those of
writing. -/
structure Work.Reads {α : Type} (x : Work α) : Prop where
  keeps : Keeps x
  failures : ∀ s f s', x s = (.error f, s') → f.NotWriting

namespace Work

variable {α β : Type} {x : Work α} {action : FileAction α} {operation task : Text} {p : Path}

theorem Reads.bind {f : α → Work β} (hx : Reads x) (hf : ∀ a, Reads (f a)) : Reads (x >>= f) where
  keeps := keeps_bind hx.keeps fun a => (hf a).keeps
  failures s e s' h := by
    rw [bind_apply] at h
    rcases hr : x s with ⟨r, s''⟩
    rw [hr] at h
    cases r with
    | error e' =>
      cases h
      exact hx.failures s e s' hr
    | ok a => exact (hf a).failures s'' e s' h

theorem Reads.disk {r : Except Failure α} {s s' : Session} (hx : Reads x) (h : x s = (r, s')) :
    s'.disk = s.disk := by
  rw [← hx.keeps s, h]

/-- What comes of work that starts by reading: the failure to read, or what the rest comes to on the
disk as it was. -/
theorem Reads.bind_cases (hx : Reads x) (f : α → Work β) (s : Session) :
    (∃ e s', (x >>= f) s = (.error e, s') ∧ s'.disk = s.disk ∧ e.NotWriting) ∨
      ∃ a s', x s = (.ok a, s') ∧ (x >>= f) s = f a s' ∧ s'.disk = s.disk := by
  rcases hr : x s with ⟨r, s'⟩
  have hk := hx.disk hr
  cases r with
  | error e => exact Or.inl ⟨e, s', bind_of_error _ _ hr f, hk, hx.failures s e s' hr⟩
  | ok a => exact Or.inr ⟨a, s', rfl, bind_of_ok _ _ hr f, hk⟩

theorem reads_pure (a : α) : Reads (pure a : Work α) := ⟨keeps_pure a, fun _ _ _ h => by cases h⟩

theorem reads_throw {f : Failure} (h : f.NotWriting) : Reads (throw f : Work α) :=
  ⟨keeps_throw f, fun _ _ _ he => by cases he; exact h⟩

theorem reads_lift {m : StateM Session α} (h : ∀ s, (m s).2.disk = s.disk) :
    Reads (liftM m : Work α) := ⟨keeps_lift h, fun _ _ _ h => by cases h⟩

theorem reads_attempt (h : Keeps action) : Reads (attempt action) :=
  ⟨h, fun _ _ _ h => by cases h⟩

theorem notWriting_file (h : operation ≠ "write design document") (task : Text) (p : Path)
    (fault : Fault) : (Failure.file operation task p fault).NotWriting := by
  intro task' p' fault' he
  cases he
  exact h rfl

theorem reads_onFile (h : Keeps action) (ho : operation ≠ "write design document") :
    Reads (onFile operation task p action) where
  keeps := h
  failures s f s' he := by
    unfold onFile at he
    rcases hr : action s with ⟨r, s''⟩
    rw [hr] at he
    cases r with
    | error fault =>
      cases he
      exact notWriting_file ho task p fault
    | ok a => cases he

theorem reads_ofExcept {r : Except Failure α} (h : ∀ f, r = .error f → f.NotWriting) :
    Reads (ofExcept r) := ⟨fun _ => rfl, fun _ f _ he => by cases he; exact h f rfl⟩

theorem reads_gather {f : α → Work (List β)} (h : ∀ a, Reads (f a)) (as : List α) :
    Reads (gather f as) := by
  induction as with
  | nil => exact reads_pure []
  | cons a as ih => exact (h a).bind fun _ => ih.bind fun _ => reads_pure _

end Work

namespace Workspace

open Work

variable {w : Workspace} {task : Text}

theorem reads_design (w : Workspace) (task : Text) : Reads (liftM (w.design task) : Work Path) :=
  reads_lift fun _ => rfl

theorem disk_hasDesign (w : Workspace) (task : Text) (s : Session) :
    (w.hasDesign task s).2.disk = s.disk := by
  apply disk_bind (fun _ => rfl)
  intro path s
  apply disk_bind (fun s => w.disturbances.disk_ask _ _ s)
  intro exists? s
  cases exists? with
  | false => rfl
  | true => exact disk_bind (fun s => w.disturbances.disk_ask _ _ s) (fun _ _ => rfl) s

theorem document_of_ok {t : Text} {s s' : Session}
    (h : w.disturbances.readText (w.layout.design s.disk task) s = (.ok t, s')) :
    w.document task s = (.ok (.read task t), s') :=
  (bind_of_ok _ _ (design_apply w task s) _).trans (bind_of_ok _ _ (Work.attempt_of h) _)

/-- What is said of a document that cannot be read. -/
theorem document_of_error {fault : Fault} {s s' : Session}
    (h : w.disturbances.readText (w.layout.design s.disk task) s = (.error fault, s')) :
    w.document task s = (.error (if fault.kind = .notFound
      then .documentMissing task (w.layout.design s.disk task)
      else .file "read design document" task (w.layout.design s.disk task) fault), s') := by
  refine ((bind_of_ok _ _ (design_apply w task s) _).trans
    (bind_of_ok _ _ (Work.attempt_of h) _)).trans ?_
  simp only
  split <;> rfl

theorem updateSection_apply {u : Update} {name content : Text}
    (hu : Update.ofSection? name content = some u) :
    w.updateSection task name content = w.document task >>= fun d => w.save (u.apply d) := by
  rw [updateSection, hu]

/-- What creating a document comes to once it is known whether there is one. -/
theorem create_apply (w : Workspace) (task : Text) (s : Session) : ∃ s', s'.disk = s.disk ∧
    w.create task s = (if (w.hasDesign task s).1 then w.document task else do
      Work.onFile "create ticket directory" task (w.layout.ticket s.disk task)
        (w.disturbances.createDirectory (w.layout.ticket s.disk task))
      w.save (.scaffold task) : Work Document) s' := by
  have hk := w.disk_hasDesign task s
  have hl : (liftM (w.hasDesign task) : Work Bool) s =
      (.ok (w.hasDesign task s).1, (w.hasDesign task s).2) := rfl
  refine ⟨_, hk, (bind_of_ok _ _ hl _).trans ?_⟩
  rw [← hk]
  cases (w.hasDesign task s).1 <;> rfl

theorem reads_document (w : Workspace) (task : Text) : Reads (w.document task) := by
  apply (reads_design w task).bind
  intro path
  apply (reads_attempt (w.disturbances.keeps_readText path)).bind
  intro r
  cases r with
  | ok t => exact reads_pure _
  | error fault =>
    simp only
    split
    · exact reads_throw fun _ _ _ h => by cases h
    · exact reads_throw (notWriting_file (by decide) _ _ _)

theorem reads_communicationsOf (w : Workspace) (task : Text) :
    Reads (w.communicationsOf task) := by
  apply (reads_lift (m := get) fun _ => rfl).bind
  intro s
  apply reads_ofExcept
  intro f hf
  cases hc : w.communications s.disk task with
  | error t =>
    rw [hc] at hf
    cases hf
    intro _ _ _ h
    cases h
  | ok cs =>
    rw [hc] at hf
    cases hf

theorem reads_extract (w : Workspace) (task : Text) : Reads (w.extract task) :=
  (reads_communicationsOf w task).bind fun _ => reads_pure _

theorem keeps_isDirectory (w : Workspace) (p : Path) :
    Keeps (liftM (w.disturbances.isDirectory p) : FileAction Bool) :=
  keeps_lift fun s => w.disturbances.disk_ask _ _ s

theorem keeps_adrPaths (w : Workspace) : Keeps w.adrPaths := by
  apply keeps_bind (keeps_isDirectory w w.layout.decisions)
  intro there
  cases there with
  | false => exact keeps_pure _
  | true =>
    refine keeps_bind (keeps_tryCatch (w.disturbances.keeps_list _) ?_) fun names => ?_
    · intro fault
      split
      · exact keeps_pure _
      · exact keeps_throw _
    · apply keeps_gather
      intro p
      exact keeps_bind (keeps_isDirectory w p) fun _ => keeps_pure _

theorem reads_relatedAdrs (w : Workspace) (task : Text) : Reads (w.relatedAdrs task) := by
  apply (reads_onFile (keeps_adrPaths w) (by decide)).bind
  intro paths
  apply (reads_lift (m := w.ticket task) fun _ => rfl).bind
  intro ticket
  apply reads_gather
  intro p
  apply (@reads_attempt _ (w.readAdr p) ?_).bind
  · intro r
    cases r with
    | error _ => exact reads_pure _
    | ok adr => exact reads_pure _
  · exact keeps_bind (w.disturbances.keeps_readText p) fun _ => keeps_pure _

end Workspace

end DesignRecords
