import DesignRecords.Proofs.Workspace.Run

namespace DesignRecords

variable {ε σ α β γ : Type}

section

variable {x : ExceptT ε (StateM σ) α} {f : α → ExceptT ε (StateM σ) β} {P : ε → Prop} {s s' : σ}
  {e : ε} {as : List α}

/-- Work fails where its first step fails, or where that has a result with which the rest fails. -/
theorem bind_eq_error : (x >>= f) s = (.error e, s') ↔
    x s = (.error e, s') ∨ ∃ a s₁, x s = (.ok a, s₁) ∧ f a s₁ = (.error e, s') := by
  rw [bind_apply]
  rcases x s with ⟨r, s₁⟩
  cases r with
  | error e' =>
    constructor
    · intro h
      cases h
      exact Or.inl rfl
    · rintro (h | ⟨a, s₂, h, -⟩)
      · cases h
        rfl
      · cases h
  | ok a =>
    refine ⟨fun h => Or.inr ⟨a, s₁, rfl, h⟩, ?_⟩
    rintro (h | ⟨a', s₂, h, hf⟩)
    · cases h
    · cases h
      exact hf

theorem gather_cons (g : α → ExceptT ε (StateM σ) (List β)) (a : α) (as : List α) :
    gather g (a :: as) = g a >>= fun first => gather g as >>= fun rest => pure (first ++ rest) :=
  rfl

theorem gather_cons_eq_ok {g : α → ExceptT ε (StateM σ) (List β)} {a : α} {bs : List β} :
    gather g (a :: as) s = (.ok bs, s') ↔ ∃ first s₁ rest, g a s = (.ok first, s₁) ∧
      gather g as s₁ = (.ok rest, s') ∧ bs = first ++ rest := by
  rw [gather_cons]
  constructor
  · intro h
    obtain ⟨first, s₁, ha, hx⟩ := bind_eq_ok _ _ (congrArg Prod.fst h)
    rw [hx] at h
    obtain ⟨rest, s₂, has, hx⟩ := bind_eq_ok _ _ (congrArg Prod.fst h)
    rw [hx] at h
    cases h
    exact ⟨first, s₁, rest, ha, has, rfl⟩
  · rintro ⟨first, s₁, rest, ha, has, rfl⟩
    rw [bind_of_ok _ _ ha, bind_of_ok _ _ has]
    rfl

theorem gather_cons_eq_error {g : α → ExceptT ε (StateM σ) (List β)} {a : α} :
    gather g (a :: as) s = (.error e, s') ↔ g a s = (.error e, s') ∨
      ∃ first s₁, g a s = (.ok first, s₁) ∧ gather g as s₁ = (.error e, s') := by
  rw [gather_cons, bind_eq_error]
  refine or_congr_right
    (exists_congr fun first => exists_congr fun s₁ => and_congr_right fun _ => ?_)
  rw [bind_eq_error]
  refine or_iff_left ?_
  rintro ⟨rest, s₂, -, h⟩
  cases h

/-- Gathering fails at the first member of the list for which the work fails. -/
theorem gather_eq_error {g : α → ExceptT ε (StateM σ) (List β)} :
    gather g as s = (.error e, s') ↔ ∃ before a after bs s₁, as = before ++ a :: after ∧
      gather g before s = (.ok bs, s₁) ∧ g a s₁ = (.error e, s') := by
  induction as generalizing s with
  | nil =>
    refine ⟨fun h => ?_, ?_⟩
    · cases h
    · rintro ⟨before, a, after, bs, s₁, h, -⟩
      cases before <;> cases h
  | cons a as ih =>
    rw [gather_cons_eq_error]
    constructor
    · rintro (h | ⟨first, s₁, ha, h⟩)
      · exact ⟨[], a, as, [], s, rfl, rfl, h⟩
      · obtain ⟨before, a', after, bs, s₂, rfl, hb, ha'⟩ := ih.mp h
        exact ⟨a :: before, a', after, first ++ bs, s₂, rfl,
          gather_cons_eq_ok.mpr ⟨first, s₁, bs, ha, hb, rfl⟩, ha'⟩
    · rintro ⟨before, a', after, bs, s₁, he, hb, ha'⟩
      cases before with
      | nil =>
        cases he
        cases hb
        exact Or.inl ha'
      | cons b before =>
        obtain ⟨rfl, rfl⟩ := List.cons.inj he
        obtain ⟨first, s₂, rest, ha, hb, -⟩ := gather_cons_eq_ok.mp hb
        exact Or.inr ⟨first, s₂, ha, ih.mpr ⟨before, a', after, rest, s₁, rfl, hb, ha'⟩⟩

/-- Whether `P` holds of all failures that some work can have. -/
def Fails (P : ε → Prop) (x : ExceptT ε (StateM σ) α) : Prop :=
  ∀ s e s', x s = (.error e, s') → P e

theorem fails_pure (a : α) : Fails P (pure a : ExceptT ε (StateM σ) α) := fun _ _ _ h => by cases h

theorem fails_throw (h : P e) : Fails P (throw e : ExceptT ε (StateM σ) α) := by
  rintro _ _ _ he
  cases he
  exact h

theorem fails_lift (m : StateM σ α) : Fails P (liftM m : ExceptT ε (StateM σ) α) :=
  fun _ _ _ h => by cases h

theorem Fails.bind (hx : Fails P x) (hf : ∀ a, Fails P (f a)) : Fails P (x >>= f) := by
  intro s e s' h
  rcases bind_eq_error.mp h with h | ⟨a, s₁, -, h⟩
  · exact hx s e s' h
  · exact hf a s₁ e s' h

theorem Fails.tryCatch {g : ε → ExceptT ε (StateM σ) α} (hg : ∀ e, Fails P (g e)) :
    Fails P (tryCatch x g) := by
  intro s e s' h
  rw [tryCatch_apply] at h
  rcases hr : x s with ⟨r, s₁⟩
  rw [hr] at h
  cases r with
  | error e' => exact hg e' s₁ e s' h
  | ok a => cases h

theorem fails_gather {g : α → ExceptT ε (StateM σ) (List β)} (h : ∀ a, Fails P (g a))
    (as : List α) : Fails P (gather g as) := by
  intro s e s' he
  obtain ⟨before, a, after, bs, s₁, -, -, ha⟩ := gather_eq_error.mp he
  exact h a s₁ e s' ha

end

/-- Whether a fault is another one than that something is missing. -/
def Fault.Found (fault : Fault) : Prop := fault.kind ≠ .notFound

/-- Whether something else than what is missing is the cause of a failure. -/
def Failure.Found (failure : Failure) : Prop := failure.isNotFound = false

namespace Failure

variable {operation task : Text} {p : Path} {fault : Fault}

theorem isNotFound_file : (file operation task p fault).isNotFound = true ↔
    fault.kind = .notFound := decide_eq_true_iff

theorem found_file : (file operation task p fault).Found ↔ fault.Found := by
  rw [Found, Fault.Found, Ne, ← @isNotFound_file operation task p fault, Bool.not_eq_true]

end Failure

namespace Work

variable {action : FileAction α} {operation task : Text} {p : Path} {s s' : Session}
  {failure : Failure}

theorem onFile_eq_error : onFile operation task p action s = (.error failure, s') ↔
    ∃ fault, action s = (.error fault, s') ∧ failure = .file operation task p fault := by
  unfold onFile
  rcases action s with ⟨r, s₁⟩
  constructor
  · intro h
    cases r with
    | ok a => cases h
    | error fault =>
      cases h
      exact ⟨fault, rfl, rfl⟩
  · rintro ⟨fault, h, rfl⟩
    cases h
    rfl

theorem fails_onFile (h : Fails Fault.Found action) :
    Fails Failure.Found (onFile operation task p action) := by
  intro s failure s' he
  obtain ⟨fault, ha, rfl⟩ := onFile_eq_error.mp he
  exact Failure.found_file.mpr (h s fault s' ha)

/-- A file that is missing is passed over, so that it does not make work fail. -/
theorem fails_unlessUnusable (action : FileAction α) :
    Fails Failure.Found (unlessUnusable operation task p action) := by
  refine Fails.bind (fun _ _ _ h => by cases h) fun result => ?_
  cases result with
  | ok a => exact fails_pure _
  | error fault =>
    simp only
    split
    · exact fails_pure _
    next h => exact fails_throw (Failure.found_file.mpr fun hk => h (by simp [hk]))

theorem fails_ofExcept {r : Except Failure α} (h : ∀ failure, r = .error failure → failure.Found) :
    Fails Failure.Found (ofExcept r) := by
  intro s failure s' he
  cases he
  exact h failure rfl

end Work

end DesignRecords
