import DesignRecords.Workspace.Store

namespace DesignRecords

variable {ε σ α β : Type}

theorem exists_of_isOk {r : Except ε α} (h : r.isOk = true) : ∃ a, r = .ok a := by
  cases r with
  | error e => cases h
  | ok a => exact ⟨a, rfl⟩

section

variable (x : ExceptT ε (StateM σ) α) (s : σ)

/-- Work goes on with the result of what was done first, unless that failed. -/
theorem bind_apply (f : α → ExceptT ε (StateM σ) β) :
    (x >>= f) s = match x s with
      | (.ok a, s') => f a s'
      | (.error e, s') => (.error e, s') := by
  change (match x s with | (a, s') => ExceptT.bindCont f a s') = _
  rcases x s with ⟨r, s'⟩
  cases r <;> rfl

theorem bind_of_ok {a : α} {s' : σ} (h : x s = (.ok a, s')) (f : α → ExceptT ε (StateM σ) β) :
    (x >>= f) s = f a s' := by
  rw [bind_apply, h]

theorem bind_of_error {e : ε} {s' : σ} (h : x s = (.error e, s'))
    (f : α → ExceptT ε (StateM σ) β) : (x >>= f) s = (.error e, s') := by
  rw [bind_apply, h]

/-- Work that has a result had one at its first step. -/
theorem bind_eq_ok {f : α → ExceptT ε (StateM σ) β} {b : β} (h : ((x >>= f) s).1 = .ok b) :
    ∃ a s', x s = (.ok a, s') ∧ (x >>= f) s = f a s' := by
  rcases hx : x s with ⟨r, s'⟩
  cases r with
  | error e =>
    rw [bind_of_error _ _ hx] at h
    cases h
  | ok a => exact ⟨a, s', rfl, bind_of_ok _ _ hx f⟩

theorem exists_run_of_isOk (h : (x s).1.isOk = true) : ∃ a s', x s = (.ok a, s') := by
  obtain ⟨a, ha⟩ := exists_of_isOk h
  exact ⟨a, (x s).2, Prod.ext ha rfl⟩

theorem snd_bind_pure (f : α → β) :
    ((x >>= fun a => pure (f a) : ExceptT ε (StateM σ) β) s).2 = (x s).2 := by
  rw [bind_apply]
  rcases x s with ⟨r, s'⟩
  cases r <;> rfl

end

/-- Whether some work leaves the disk as it is, whatever comes of it. -/
def Keeps (x : ExceptT ε (StateM Session) α) : Prop := ∀ s, (x s).2.disk = s.disk

theorem keeps_bind {x : ExceptT ε (StateM Session) α} {f : α → ExceptT ε (StateM Session) β}
    (hx : Keeps x) (hf : ∀ a, Keeps (f a)) : Keeps (x >>= f) := by
  intro s
  have h := hx s
  rw [bind_apply]
  rcases hr : x s with ⟨r, s'⟩
  rw [hr] at h
  cases r with
  | error e => exact h
  | ok a => exact (hf a s').trans h

theorem keeps_pure (a : α) : Keeps (pure a : ExceptT ε (StateM Session) α) := fun _ => rfl

theorem keeps_throw (e : ε) : Keeps (throw e : ExceptT ε (StateM Session) α) := fun _ => rfl

theorem keeps_lift {m : StateM Session α} (h : ∀ s, (m s).2.disk = s.disk) :
    Keeps (liftM m : ExceptT ε (StateM Session) α) := h

theorem disk_bind {m : StateM Session α} {f : α → StateM Session β}
    (hm : ∀ s, (m s).2.disk = s.disk) (hf : ∀ a s, (f a s).2.disk = s.disk) (s : Session) :
    ((m >>= f) s).2.disk = s.disk := (hf (m s).1 (m s).2).trans (hm s)

theorem tryCatch_apply (x : ExceptT ε (StateM σ) α) (f : ε → ExceptT ε (StateM σ) α) (s : σ) :
    (tryCatch x f) s = match x s with
      | (.error e, s') => f e s'
      | (.ok a, s') => (.ok a, s') := by
  have ht : ∀ r : Except ε α × σ, (match r with
      | (r, s') => (match r with
        | .ok a => fun s => (.ok a, s)
        | .error e => f e : StateM σ (Except ε α)) s') = match r with
      | (.error e, s') => f e s'
      | (.ok a, s') => (.ok a, s') := by
    rintro ⟨r, s'⟩
    cases r <;> rfl
  exact ht (x s)

theorem keeps_tryCatch {x : ExceptT ε (StateM Session) α}
    {f : ε → ExceptT ε (StateM Session) α} (hx : Keeps x) (hf : ∀ e, Keeps (f e)) :
    Keeps (tryCatch x f) := by
  intro s
  have h := hx s
  rw [tryCatch_apply]
  rcases hr : x s with ⟨r, s'⟩
  rw [hr] at h
  cases r with
  | error e => exact (hf e s').trans h
  | ok a => exact h

theorem keeps_gather {f : α → ExceptT ε (StateM Session) (List β)} (h : ∀ a, Keeps (f a))
    (as : List α) : Keeps (gather f as) := by
  induction as with
  | nil => exact keeps_pure []
  | cons a as ih => exact keeps_bind (h a) fun _ => keeps_bind ih fun _ => keeps_pure _

namespace Disturbances

variable {ds : Disturbances} {call : Call} {s : Session} {p : Path}

theorem keeps_perform (ds : Disturbances) (call : Call) {work : Disk → Except Fault α × Disk}
    (h : ∀ d, (work d).2 = d) : Keeps (ds.perform call work) := by
  intro s
  unfold perform
  split
  · rfl
  · exact h s.disk

theorem keeps_readText (ds : Disturbances) (p : Path) : Keeps (ds.readText p) :=
  keeps_perform ds _ fun _ => rfl

theorem keeps_list (ds : Disturbances) (p : Path) : Keeps (ds.list p) :=
  keeps_perform ds _ fun _ => rfl

theorem disk_ask (ds : Disturbances) (call : Call) (truth : Disk → Bool) (s : Session) :
    (ds.ask call truth s).2.disk = s.disk := by
  unfold ask
  split <;> rfl

/-- Whether some work on a disk makes a change or fails: it fails when it is disturbed or when the
change cannot be made, and the disk then stays as it is. -/
def Changes (ds : Disturbances) (call : Call) (change : Disk → Except Fault Disk) (s : Session)
    (action : FileAction Unit) : Prop :=
  (∃ fault, action s = (.error fault, ⟨s.disk, s.calls + 1⟩) ∧
    (ds s.calls call = some (.failing fault) ∨ change s.disk = .error fault)) ∨
  ∃ d, action s = (.ok (), ⟨d, s.calls + 1⟩) ∧ change s.disk = .ok d

theorem changes_perform (ds : Disturbances) (call : Call) (change : Disk → Except Fault Disk)
    (s : Session) :
    ds.Changes call change s (ds.perform call fun d => changed d (change d)) := by
  unfold Changes perform
  split
  next fault h => exact Or.inl ⟨fault, rfl, Or.inl h⟩
  next =>
    cases hc : change s.disk with
    | error fault => exact Or.inl ⟨fault, by simp [changed, hc], Or.inr rfl⟩
    | ok d => exact Or.inr ⟨d, by simp [changed, hc], rfl⟩

theorem changes_write (ds : Disturbances) (p : Path) (t : Text) (s : Session) :
    ds.Changes ⟨.write, p⟩ (·.write p (.text t)) s (ds.write p t) := ds.changes_perform _ _ s

theorem changes_rename (ds : Disturbances) (p p' : Path) (s : Session) :
    ds.Changes ⟨.rename, p'⟩ (·.rename p p') s (ds.rename p p') := ds.changes_perform _ _ s

theorem changes_removeFile (ds : Disturbances) (p : Path) (s : Session) :
    ds.Changes ⟨.removeFile, p⟩ (·.removeFile p) s (ds.removeFile p) := ds.changes_perform _ _ s

theorem readText_of_ok {t : Text} {s' : Session} (h : ds.readText p s = (.ok t, s')) :
    s.disk.readText p = .ok t := by
  unfold readText perform at h
  split at h
  · cases h
  · exact congrArg Prod.fst h

theorem createDirectory_cases (ds : Disturbances) (p : Path) (s : Session) :
    (∃ fault, ds.createDirectory p s = (.error fault, ⟨s.disk, s.calls + 1⟩)) ∨
      ds.createDirectory p s =
        ((s.disk.createDirectory p).1, ⟨(s.disk.createDirectory p).2, s.calls + 1⟩) := by
  unfold createDirectory perform
  split
  next fault _ => exact Or.inl ⟨fault, rfl⟩
  next => exact Or.inr rfl

end Disturbances

namespace Work

variable {action : FileAction α} {s s' : Session}

theorem onFile_of_error {fault : Fault} (h : action s = (.error fault, s'))
    (operation task : Text) (p : Path) :
    onFile operation task p action s = (.error (.file operation task p fault), s') := by
  rw [onFile, h]
  rfl

theorem onFile_of_ok {a : α} (h : action s = (.ok a, s')) (operation task : Text) (p : Path) :
    onFile operation task p action s = (.ok a, s') := by
  rw [onFile, h]
  rfl

theorem attempt_of {r : Except Fault α} (h : action s = (r, s')) :
    attempt action s = (.ok r, s') := by
  rw [attempt, h]

end Work

theorem Workspace.design_apply (w : Workspace) (task : Text) (s : Session) :
    (liftM (w.design task) : Work Path) s = (.ok (w.layout.design s.disk task), s) := rfl

end DesignRecords
