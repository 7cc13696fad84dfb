import DesignRecords.Proofs.Workspace.Reads

namespace DesignRecords

variable {ε α β : Type} {d : Disk} {s : Session} {x : ExceptT ε (StateM Session) α}
  {f : α → ExceptT ε (StateM Session) β} {a : α} {e : ε} {r : Except ε β}

/-- Whether some work on a disk has a result, however many calls have been made before, and leaves
the disk as it is. -/
def Answers (x : ExceptT ε (StateM Session) α) (d : Disk) (r : Except ε α) : Prop :=
  ∀ n, ∃ n', x ⟨d, n⟩ = (r, ⟨d, n'⟩)

theorem Answers.result {r : Except ε α} (h : Answers x s.disk r) : (x s).1 = r := by
  obtain ⟨n', hx⟩ := h s.calls
  exact congrArg Prod.fst hx

theorem answers_pure (a : α) (d : Disk) :
    Answers (pure a : ExceptT ε (StateM Session) α) d (.ok a) := fun n => ⟨n, rfl⟩

theorem answers_throw (e : ε) (d : Disk) :
    Answers (throw e : ExceptT ε (StateM Session) α) d (.error e) := fun n => ⟨n, rfl⟩

theorem Answers.bind (hx : Answers x d (.ok a)) (hf : Answers (f a) d r) :
    Answers (x >>= f) d r := by
  intro n
  obtain ⟨n', h⟩ := hx n
  rw [bind_of_ok _ _ h]
  exact hf n'

theorem Answers.bind_error (hx : Answers x d (.error e)) (f : α → ExceptT ε (StateM Session) β) :
    Answers (x >>= f) d (.error e) := by
  intro n
  obtain ⟨n', h⟩ := hx n
  exact ⟨n', bind_of_error _ _ h f⟩

theorem Answers.bind_pure {γ : Type} (hx : Answers x d (.ok a)) (g : α → γ) :
    Answers (x >>= fun a => pure (g a)) d (.ok (g a)) :=
  hx.bind (f := fun a => pure (g a)) (answers_pure _ d)

theorem Answers.map {γ : Type} (hx : Answers x d (.ok a)) (g : α → γ) :
    Answers (g <$> x) d (.ok (g a)) := by
  rw [map_eq_pure_bind]
  exact hx.bind_pure g

theorem Answers.map_error {γ : Type} (hx : Answers x d (.error e)) (g : α → γ) :
    Answers (g <$> x) d (.error e) := by
  rw [map_eq_pure_bind]
  exact hx.bind_error _

theorem Answers.tryCatch_ok (hx : Answers x d (.ok a)) (g : ε → ExceptT ε (StateM Session) α) :
    Answers (tryCatch x g) d (.ok a) := by
  intro n
  obtain ⟨n', h⟩ := hx n
  exact ⟨n', by rw [tryCatch_apply, h]⟩

theorem Answers.tryCatch_error {g : ε → ExceptT ε (StateM Session) α} {r : Except ε α}
    (hx : Answers x d (.error e)) (hg : Answers (g e) d r) : Answers (tryCatch x g) d r := by
  intro n
  obtain ⟨n', h⟩ := hx n
  rw [tryCatch_apply, h]
  exact hg n'

theorem answers_readText (p : Path) (d : Disk) :
    Answers (Disturbances.none.readText p) d (d.readText p) := fun n => ⟨n + 1, rfl⟩

theorem answers_list (p : Path) (d : Disk) :
    Answers (Disturbances.none.list p) d (d.list p) := fun n => ⟨n + 1, rfl⟩

theorem answers_isDirectory (p : Path) (d : Disk) :
    Answers (liftM (Disturbances.none.isDirectory p) : FileAction Bool) d
      (.ok (d.isDirectory p)) := fun n => ⟨n + 1, rfl⟩

/-- What is gathered of known results is the results gathered. -/
theorem answers_gather {γ : Type} {f : γ → ExceptT ε (StateM Session) (List β)}
    {g : γ → Except ε (List β)} {as : List γ} (h : ∀ a ∈ as, Answers (f a) d (g a)) :
    Answers (gather f as) d (gather g as) := by
  induction as with
  | nil => exact answers_pure [] d
  | cons a as ih =>
    have ha := h a (by simp)
    have ih := ih fun b hb => h b (List.mem_cons_of_mem a hb)
    rw [gather, gather]
    cases hg : g a with
    | error e =>
      rw [hg] at ha
      exact ha.bind_error _
    | ok bs =>
      rw [hg] at ha
      refine ha.bind ?_
      cases hr : gather g as with
      | error e =>
        rw [hr] at ih
        exact ih.bind_error _
      | ok cs =>
        rw [hr] at ih
        exact ih.bind (answers_pure _ d)

namespace Work

variable {action : FileAction α} {result : Except Fault α} {operation task : Text} {p : Path}

theorem answers_onFile (h : Answers action d result) :
    Answers (onFile operation task p action) d (result.mapError (.file operation task p)) := by
  intro n
  obtain ⟨n', ha⟩ := h n
  exact ⟨n', by rw [onFile, ha]⟩

theorem answers_attempt (h : Answers action d result) :
    Answers (attempt action) d (.ok result) := by
  intro n
  obtain ⟨n', ha⟩ := h n
  exact ⟨n', attempt_of ha⟩

end Work

/-- Whether a file that cannot be read is passed over: it is missing, or no text. -/
def Fault.Passed (fault : Fault) : Prop := fault.kind = .notFound ∨ fault.kind = .invalidData

instance (fault : Fault) : Decidable fault.Passed :=
  inferInstanceAs (Decidable (fault.kind = .notFound ∨ fault.kind = .invalidData))

/-- Whether something could be had of a file, or the file is passed over. -/
def Usable (result : Except Fault α) : Prop := ∀ fault, result = .error fault → fault.Passed

theorem usable_ok (a : α) : Usable (.ok a : Except Fault α) := fun _ h => by cases h

theorem usable_error {fault : Fault} :
    Usable (.error fault : Except Fault α) ↔ fault.Passed :=
  ⟨fun h => h fault rfl, fun h _ he => by cases he; exact h⟩

namespace Work

variable {action : FileAction α} {operation task : Text} {p : Path}

theorem answers_unlessUnusable_ok (h : Answers action d (.ok a)) :
    Answers (unlessUnusable operation task p action) d (.ok (some a)) :=
  (answers_attempt h).bind (answers_pure _ d)

theorem answers_unlessUnusable_error {fault : Fault} (h : Answers action d (.error fault)) :
    Answers (unlessUnusable operation task p action) d
      (if fault.Passed then .ok none else .error (.file operation task p fault)) := by
  refine (answers_attempt h).bind ?_
  by_cases hp : fault.Passed
  · have hb : (decide (fault.kind = .notFound) || decide (fault.kind = .invalidData)) = true := by
      simpa [Fault.Passed] using hp
    simp only [hb, if_pos hp, if_true]
    exact answers_pure _ d
  · have hb : (decide (fault.kind = .notFound) || decide (fault.kind = .invalidData)) = false := by
      simpa [Fault.Passed] using hp
    simp only [hb, if_neg hp, Bool.false_eq_true, if_false]
    exact answers_throw _ d

end Work

namespace Workspace

variable {w : Workspace} {task t : Text}

theorem answers_document_ok (hn : w.disturbances = .none)
    (ht : d.readText (w.layout.design d task) = .ok t) :
    Answers (w.document task) d (.ok (.read task t)) := by
  intro n
  refine ⟨n + 1, document_of_ok ?_⟩
  rw [hn]
  exact congrArg (fun r => (r, Session.mk d (n + 1))) ht

theorem answers_document_error {fault : Fault} (hn : w.disturbances = .none)
    (ht : d.readText (w.layout.design d task) = .error fault) :
    ∃ failure : Failure, Answers (w.document task) d (.error failure) ∧
      ((failure.isNotFound || failure.isInvalidData) = true ↔ fault.Passed) := by
  refine ⟨if fault.kind = .notFound then .documentMissing task (w.layout.design d task)
    else .file "read design document" task (w.layout.design d task) fault,
    fun n => ⟨n + 1, document_of_error (s := ⟨d, n⟩) ?_⟩, ?_⟩
  · rw [hn]
    exact congrArg (fun r => (r, Session.mk d (n + 1))) ht
  · by_cases hk : fault.kind = .notFound
    · simp [hk, Failure.isNotFound, Fault.Passed]
    · simp [hk, Failure.isNotFound, Failure.isInvalidData, Fault.Passed]

end Workspace

/-- Whether some work on a disk is done just where `ok` holds, and what it then finds is what `P`
holds of. -/
def Finds (x : ExceptT ε (StateM Session) (List β)) (d : Disk) (ok : Prop) (P : β → Prop) : Prop :=
  (ok ∧ ∃ bs, Answers x d (.ok bs) ∧ ∀ b, b ∈ bs ↔ P b) ∨ (¬ ok ∧ ∃ e, Answers x d (.error e))

section

variable {x : ExceptT ε (StateM Session) (List β)} {f : α → ExceptT ε (StateM Session) (List β)}
  {y : ExceptT ε (StateM Session) (List α)} {ok ok' : Prop} {P P' : β → Prop} {Q : α → Prop}
  {okOf : α → Prop} {R : α → β → Prop} {bs : List β} {as : List α}

theorem finds_pure (bs : List β) (d : Disk) :
    Finds (pure bs : ExceptT ε (StateM Session) (List β)) d True (· ∈ bs) :=
  Or.inl ⟨trivial, bs, answers_pure bs d, fun _ => Iff.rfl⟩

theorem Answers.finds (h : Answers x d (.ok bs)) : Finds x d True (· ∈ bs) :=
  Or.inl ⟨trivial, bs, h, fun _ => Iff.rfl⟩

theorem Answers.finds_error (h : Answers x d (.error e)) (P : β → Prop) : Finds x d False P :=
  Or.inr ⟨id, e, h⟩

theorem Finds.congr (h : Finds x d ok P) (ho : ok ↔ ok') (hP : ok → ∀ b, P b ↔ P' b) :
    Finds x d ok' P' := by
  rcases h with ⟨hok, bs, hx, hb⟩ | ⟨hok, e, hx⟩
  · exact Or.inl ⟨ho.mp hok, bs, hx, fun b => (hb b).trans (hP hok b)⟩
  · exact Or.inr ⟨fun h => hok (ho.mpr h), e, hx⟩

theorem Finds.gather_cons (ha : Finds (f a) d ok P) (h : Finds (gather f as) d ok' P') :
    Finds (gather f (a :: as)) d (ok ∧ ok') fun b => P b ∨ P' b := by
  rcases ha with ⟨hok, bs, hbs, hb⟩ | ⟨hok, e, he⟩
  · rcases h with ⟨hok', cs, hcs, hc⟩ | ⟨hok', e, he⟩
    · refine Or.inl ⟨⟨hok, hok'⟩, bs ++ cs, hbs.bind (hcs.bind (answers_pure _ d)), fun b => ?_⟩
      rw [List.mem_append, hb, hc]
    · exact Or.inr ⟨fun h => hok' h.2, e, hbs.bind (he.bind_error _)⟩
  · exact Or.inr ⟨fun h => hok h.1, e, he.bind_error _⟩

/-- Where something was gathered, it is there what is found for the first member of the list. -/
theorem Finds.of_gather_cons {n : Nat} (ha : Finds (f a) d ok P)
    (h : (gather f (a :: as) ⟨d, n⟩).1 = .ok bs) :
    (∀ b, P b → b ∈ bs) ∧ ∃ n' cs, (gather f as ⟨d, n'⟩).1 = .ok cs ∧ cs ⊆ bs := by
  have hg : gather f (a :: as) = f a >>= fun bs => gather f as >>= fun cs => pure (bs ++ cs) := rfl
  rw [hg] at h
  rcases ha with ⟨-, bs', hbs, hb⟩ | ⟨-, e, he⟩
  · obtain ⟨n', hn⟩ := hbs n
    rw [bind_of_ok _ _ hn] at h
    obtain ⟨cs, s', hr, hx⟩ := bind_eq_ok _ _ h
    rw [hx] at h
    cases h
    exact ⟨fun b hP => List.mem_append_left _ ((hb b).mpr hP), n', cs, by rw [hr],
      List.subset_append_right _ _⟩
  · obtain ⟨n', hn⟩ := he n
    rw [bind_of_error _ _ hn] at h
    cases h

/-- What is gathered is what is found for one member of the list, and each of them must be seen
to. -/
theorem finds_gather (h : ∀ a ∈ as, Finds (f a) d (okOf a) (R a)) :
    Finds (gather f as) d (∀ a ∈ as, okOf a) fun b => ∃ a ∈ as, R a b := by
  induction as with
  | nil => exact (finds_pure [] d).congr (by simp) (by simp)
  | cons a as ih =>
    have hrest := ih fun a ha => h a (List.mem_cons_of_mem _ ha)
    exact ((h a (by simp)).gather_cons hrest).congr (by simp) (by simp)

theorem Finds.bind {g : List α → ExceptT ε (StateM Session) (List β)} (hy : Finds y d ok Q)
    (h : ∀ as, (∀ a, a ∈ as ↔ Q a) → Finds (g as) d ok' P) : Finds (y >>= g) d (ok ∧ ok') P := by
  rcases hy with ⟨hok, as, has, ha⟩ | ⟨hok, e, he⟩
  · rcases h as ha with ⟨hok', bs, hbs, hb⟩ | ⟨hok', e, he⟩
    · exact Or.inl ⟨⟨hok, hok'⟩, bs, has.bind hbs, hb⟩
    · exact Or.inr ⟨fun h => hok' h.2, e, has.bind he⟩
  · exact Or.inr ⟨fun h => hok h.1, e, he.bind_error _⟩

theorem Finds.bind_gather (hy : Finds y d ok Q) (h : ∀ a, Q a → Finds (f a) d (okOf a) (R a)) :
    Finds (y >>= gather f) d (ok ∧ ∀ a, Q a → okOf a) fun b => ∃ a, Q a ∧ R a b := by
  refine hy.bind fun as ha => ?_
  have hg := finds_gather fun a hm => h a ((ha a).mp hm)
  simpa only [ha] using hg

theorem Answers.finds_bind {y : ExceptT ε (StateM Session) α} (hy : Answers y d (.ok a))
    (h : Finds (f a) d ok P) : Finds (y >>= f) d ok P := by
  rcases h with ⟨hok, bs, hbs, hb⟩ | ⟨hok, e, he⟩
  · exact Or.inl ⟨hok, bs, hy.bind hbs, hb⟩
  · exact Or.inr ⟨hok, e, hy.bind he⟩

theorem Finds.of_get {g : Disk → ExceptT ε (StateM Session) (List β)} (h : Finds (g d) d ok P) :
    Finds (get >>= fun s => g s.disk) d ok P := h

theorem Finds.onFile {action : FileAction (List β)} (h : Finds action d ok P)
    (operation task : Text) (p : Path) : Finds (Work.onFile operation task p action) d ok P := by
  rcases h with ⟨hok, bs, hbs, hb⟩ | ⟨hok, e, he⟩
  · exact Or.inl ⟨hok, bs, Work.answers_onFile hbs, hb⟩
  · exact Or.inr ⟨hok, _, Work.answers_onFile he⟩

end

/-- What is found in a file that can be passed over. -/
theorem Work.finds_unlessUnusable {action : FileAction α} {result : Except Fault α}
    {operation task : Text} {p : Path} {g : Option α → Work (List β)} (bs : α → List β)
    (h : Answers action d result) (hnone : g none = pure [])
    (hsome : ∀ a, g (some a) = pure (bs a)) :
    Finds (Work.unlessUnusable operation task p action >>= g) d (Usable result)
      fun b => ∃ a, result = .ok a ∧ b ∈ bs a := by
  cases result with
  | ok a =>
    refine (answers_unlessUnusable_ok h).finds_bind ?_
    rw [hsome]
    refine (finds_pure (bs a) d).congr (by simp [usable_ok]) fun _ b => ?_
    simp
  | error fault =>
    have hu := @answers_unlessUnusable_error _ d _ operation task p fault h
    by_cases hp : fault.Passed
    · rw [if_pos hp] at hu
      refine hu.finds_bind ?_
      rw [hnone]
      exact (finds_pure [] d).congr (by simp [usable_error, hp]) (by simp)
    · rw [if_neg hp] at hu
      refine ((hu.bind_error g).finds_error fun _ => False).congr ?_ (by simp)
      simp [usable_error, hp]

end DesignRecords
