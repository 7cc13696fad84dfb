import DesignRecords.Proofs.Workspace.Undisturbed

namespace DesignRecords

variable {ε α β α' β' : Type} {R : α → β → Prop} {T : α' → β' → Prop}

/-- Whether two results are the same failure, or successes that `R` relates. -/
inductive Related (R : α → β → Prop) : Except ε α → Except ε β → Prop
  | ok {a : α} {b : β} (h : R a b) : Related R (.ok a) (.ok b)
  | error (e : ε) : Related R (.error e) (.error e)

theorem related_refl (r : Except ε α) : Related (· = ·) r r := by
  cases r with
  | ok a => exact .ok rfl
  | error e => exact .error e

theorem Related.eq {r r' : Except ε α} (h : Related (· = ·) r r') : r = r' := by
  cases h with
  | ok h => rw [h]
  | error e => rfl

/-- Whether work on one disk and work on another one come to results that `R` relates, and leave the
disks as they are. -/
def Matches (R : α → β → Prop) (x : ExceptT ε (StateM Session) α) (d : Disk)
    (y : ExceptT ε (StateM Session) β) (d' : Disk) : Prop :=
  ∃ r r', Answers x d r ∧ Answers y d' r' ∧ Related R r r'

section

variable {d d' : Disk} {x : ExceptT ε (StateM Session) α} {y : ExceptT ε (StateM Session) β}
  {f : α → ExceptT ε (StateM Session) α'} {g : β → ExceptT ε (StateM Session) β'}

theorem matches_pure {a : α} {b : β} (h : R a b) :
    Matches R (pure a : ExceptT ε (StateM Session) α) d (pure b) d' :=
  ⟨_, _, answers_pure a d, answers_pure b d', .ok h⟩

theorem matches_throw (e : ε) : Matches R (throw e : ExceptT ε (StateM Session) α) d
    (throw e : ExceptT ε (StateM Session) β) d' :=
  ⟨_, _, answers_throw e d, answers_throw e d', .error e⟩

theorem Matches.bind (h : Matches R x d y d')
    (hf : ∀ a b, R a b → Matches T (f a) d (g b) d') : Matches T (x >>= f) d (y >>= g) d' := by
  obtain ⟨r, r', hx, hy, hr⟩ := h
  cases hr with
  | ok h =>
    obtain ⟨t, t', hf, hg, ht⟩ := hf _ _ h
    exact ⟨t, t', hx.bind hf, hy.bind hg, ht⟩
  | error e => exact ⟨_, _, hx.bind_error f, hy.bind_error g, .error e⟩

theorem Matches.of_get (g : Disk → ExceptT ε (StateM Session) α)
    (g' : Disk → ExceptT ε (StateM Session) β) (h : Matches R (g d) d (g' d') d') :
    Matches R (get >>= fun s => g s.disk) d (get >>= fun s => g' s.disk) d' := h

theorem Matches.tryCatch {x' : ε → ExceptT ε (StateM Session) α}
    {y' : ε → ExceptT ε (StateM Session) β} (h : Matches R x d y d')
    (hc : ∀ e, Matches R (x' e) d (y' e) d') :
    Matches R (tryCatch x x') d (tryCatch y y') d' := by
  obtain ⟨r, r', hx, hy, hr⟩ := h
  cases hr with
  | ok h => exact ⟨_, _, hx.tryCatch_ok x', hy.tryCatch_ok y', .ok h⟩
  | error e =>
    obtain ⟨t, t', hx', hy', ht⟩ := hc e
    exact ⟨t, t', hx.tryCatch_error hx', hy.tryCatch_error hy', ht⟩

theorem Matches.result {x y : ExceptT ε (StateM Session) α} (h : Matches (· = ·) x d y d')
    (n n' : Nat) : (x ⟨d, n⟩).1 = (y ⟨d', n'⟩).1 := by
  obtain ⟨r, r', hx, hy, hr⟩ := h
  obtain ⟨k, hx⟩ := hx n
  obtain ⟨k', hy⟩ := hy n'
  rw [hx, hy, hr.eq]

theorem Matches.answers {x y : ExceptT ε (StateM Session) α} {r : Except ε α}
    (h : Matches (· = ·) x d y d') (hx : Answers x d r) : Answers y d' r := by
  obtain ⟨t, t', ht, ht', hr⟩ := h
  have he : r = t := (hx.result (s := ⟨d, 0⟩)).symm.trans (ht.result (s := ⟨d, 0⟩))
  rw [he, hr.eq]
  exact ht'

/-- What is gathered for the members of a list is related to what is gathered for those of them that
are kept, where nothing is related to what the others yield. -/
theorem matches_gather_filter {R : List α' → List β' → Prop}
    {f : α → ExceptT ε (StateM Session) (List α')} {g : α → ExceptT ε (StateM Session) (List β')}
    (keep : α → Bool) (as : List α) (hnil : R [] [])
    (happend : ∀ xs ys xs' ys', R xs ys → R xs' ys' → R (xs ++ xs') (ys ++ ys'))
    (hkeep : ∀ a ∈ as, keep a = true → Matches R (f a) d (g a) d')
    (hdrop : ∀ a ∈ as, keep a = false → ∃ xs, Answers (f a) d (.ok xs) ∧ R xs []) :
    Matches R (gather f as) d (gather g (as.filter keep)) d' := by
  induction as with
  | nil => exact matches_pure hnil
  | cons a as ih =>
    have ih := ih (fun a ha => hkeep a (List.mem_cons_of_mem _ ha))
      fun a ha => hdrop a (List.mem_cons_of_mem _ ha)
    cases ha : keep a with
    | true =>
      rw [List.filter_cons_of_pos ha]
      refine (hkeep a (by simp) ha).bind fun xs ys h => ih.bind fun xs' ys' h' => ?_
      exact matches_pure (happend xs ys xs' ys' h h')
    | false =>
      rw [List.filter_cons_of_neg (by simp [ha])]
      obtain ⟨xs, hxs, hR⟩ := hdrop a (by simp) ha
      obtain ⟨r, r', hr, hr', hrel⟩ := ih
      cases hrel with
      | ok h =>
        refine ⟨_, _, hxs.bind (hr.bind_pure _), hr', .ok ?_⟩
        exact happend xs [] _ _ hR h
      | error e => exact ⟨_, _, hxs.bind (hr.bind_error _), hr', .error e⟩

theorem matches_gather {R : List α' → List β' → Prop}
    {f : α → ExceptT ε (StateM Session) (List α')} {g : α → ExceptT ε (StateM Session) (List β')}
    (as : List α) (hnil : R [] [])
    (happend : ∀ xs ys xs' ys', R xs ys → R xs' ys' → R (xs ++ xs') (ys ++ ys'))
    (h : ∀ a ∈ as, Matches R (f a) d (g a) d') : Matches R (gather f as) d (gather g as) d' := by
  have hm := matches_gather_filter (fun _ => true) as hnil happend (fun a ha _ => h a ha)
    fun _ _ hf => by cases hf
  rwa [List.filter_true] at hm

end

section

variable {ds ds' : Disturbances} {d d' : Disk} {call : Call} {o : Option Disturbance}

/-- What comes of a call with a result of its own. -/
def Disturbance.outcome (o : Option Disturbance) (r : Except Fault α) : Except Fault α :=
  match o with
  | some (.failing fault) => .error fault
  | _ => r

/-- What is answered to a question with an answer of its own. -/
def Disturbance.answer (o : Option Disturbance) (b : Bool) : Bool :=
  match o with
  | some (.answering answer) => answer
  | _ => b

theorem perform_apply {work : Disk → Except Fault α × Disk} {n : Nat} (hw : (work d).2 = d) :
    ds.perform call work ⟨d, n⟩ = (Disturbance.outcome (ds n call) (work d).1, ⟨d, n + 1⟩) := by
  unfold Disturbances.perform Disturbance.outcome
  rcases ds n call with _ | fault | answer
  · simp only [hw]
  · rfl
  · simp only [hw]

theorem ask_apply {truth : Disk → Bool} {n : Nat} :
    (liftM (ds.ask call truth) : ExceptT ε (StateM Session) Bool) ⟨d, n⟩ =
      (.ok (Disturbance.answer (ds n call) (truth d)), ⟨d, n + 1⟩) := by
  have hask : ds.ask call truth ⟨d, n⟩ =
      (Disturbance.answer (ds n call) (truth d), ⟨d, n + 1⟩) := by
    unfold Disturbances.ask Disturbance.answer
    rcases ds n call with _ | fault | answer <;> rfl
  exact congrArg (fun x : Bool × Session => (Except.ok x.1, x.2)) hask

theorem answers_perform {work : Disk → Except Fault α × Disk} (ho : ∀ n, ds n call = o)
    (hw : (work d).2 = d) :
    Answers (ds.perform call work) d (Disturbance.outcome o (work d).1) := fun n =>
  ⟨n + 1, by rw [perform_apply hw, ho]⟩

theorem answers_ask {truth : Disk → Bool} (ho : ∀ n, ds n call = o) :
    Answers (liftM (ds.ask call truth) : FileAction Bool) d
      (.ok (Disturbance.answer o (truth d))) := fun n =>
  ⟨n + 1, by rw [ask_apply, ho]⟩

/-- Whether a call is disturbed in the same way in two sessions, at all times. -/
def Disturbances.Same (ds ds' : Disturbances) (call : Call) : Prop :=
  ∃ o, (∀ n, ds n call = o) ∧ ∀ n, ds' n call = o

theorem matches_perform {work : Disk → Except Fault α × Disk}
    {work' : Disk → Except Fault β × Disk} (hs : ds.Same ds' call) (hw : (work d).2 = d)
    (hw' : (work' d').2 = d') (h : Related R (work d).1 (work' d').1) :
    Matches R (ds.perform call work) d (ds'.perform call work') d' := by
  obtain ⟨o, ho, ho'⟩ := hs
  refine ⟨_, _, answers_perform ho hw, answers_perform ho' hw', ?_⟩
  unfold Disturbance.outcome
  split
  · exact .error _
  · exact h

theorem matches_readText {p : Path} (hs : ds.Same ds' ⟨.readText, p⟩)
    (h : d'.readText p = d.readText p) :
    Matches (· = ·) (ds.readText p) d (ds'.readText p) d' := by
  refine matches_perform hs rfl rfl ?_
  rw [h]
  exact related_refl _

theorem matches_isDirectory {p : Path} (hs : ds.Same ds' ⟨.isDirectory, p⟩)
    (h : d'.isDirectory p = d.isDirectory p) :
    Matches (· = ·) (liftM (ds.isDirectory p) : FileAction Bool) d
      (liftM (ds'.isDirectory p) : FileAction Bool) d' := by
  obtain ⟨o, ho, ho'⟩ := hs
  refine ⟨_, _, answers_ask ho, answers_ask ho', ?_⟩
  rw [h]
  exact related_refl _

end

namespace Work

variable {d d' : Disk} {action : FileAction α} {action' : FileAction β} {operation task : Text}
  {p : Path}

theorem matches_onFile (h : Matches R action d action' d') :
    Matches R (onFile operation task p action) d (onFile operation task p action') d' := by
  obtain ⟨r, r', hx, hy, hr⟩ := h
  refine ⟨_, _, answers_onFile hx, answers_onFile hy, ?_⟩
  cases hr with
  | ok h => exact .ok h
  | error e => exact .error _

theorem matches_attempt (h : Matches R action d action' d') :
    Matches (Related R) (attempt action) d (attempt action') d' := by
  obtain ⟨r, r', hx, hy, hr⟩ := h
  exact ⟨_, _, answers_attempt hx, answers_attempt hy, .ok hr⟩

theorem matches_unlessUnusable {action' : FileAction α} (h : Matches (· = ·) action d action' d') :
    Matches (· = ·) (unlessUnusable operation task p action) d
      (unlessUnusable operation task p action') d' := by
  refine (matches_attempt h).bind fun r r' hr => ?_
  rw [hr.eq]
  cases r' with
  | ok a => exact matches_pure rfl
  | error fault =>
    simp only
    split
    · exact matches_pure rfl
    · exact matches_throw _

end Work

end DesignRecords
