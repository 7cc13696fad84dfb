import DesignRecords.Proofs.Conflict.Corpus
import DesignRecords.Proofs.Workspace.Failing

namespace DesignRecords

namespace Layout

variable {d : Disk} {l : Layout} {fault : Fault}

/-- A directory of tickets that is missing does not keep the others from being listed. -/
theorem found_of_tasks (h : l.tasks d = .error fault) : fault.Found := by
  unfold tasks at h
  rcases visibleDirectories_cases d l.tickets with ⟨active, ha, -⟩ | ⟨fault', hf, -, hk⟩
  · rcases visibleDirectories_cases d l.archive with ⟨archived, hb, -⟩ | ⟨fault', hf, -, hk⟩
    · rw [ha, hb] at h
      cases h
    · rw [ha, hf] at h
      cases h
      exact hk
  · rw [hf] at h
    cases h
    exact hk

end Layout

namespace Workspace

variable {w : Workspace} {r : Request} {s s' : Session} {failure : Failure} {fault : Fault}
  {depth : Nat} {dir p : Path} {task : Text}

theorem fails_adrPaths (w : Workspace) : Fails Fault.Found w.adrPaths := by
  refine (fails_lift _).bind fun there => ?_
  cases there with
  | false => exact fails_pure _
  | true =>
    refine (Fails.tryCatch fun fault => ?_).bind fun names => fails_gather (fun p => ?_) _
    · split
      · exact fails_pure _
      next h => exact fails_throw h
    · exact (fails_lift _).bind fun _ => fails_pure _

theorem fails_adrCandidates (w : Workspace) (r : Request) :
    Fails Failure.Found (w.adrCandidates r) := by
  refine (Work.fails_onFile w.fails_adrPaths).bind fun paths => fails_gather (fun p => ?_) paths
  refine (Work.fails_unlessUnusable _).bind fun adr => ?_
  cases adr with
  | none => exact fails_pure _
  | some adr =>
    simp only
    split <;> exact fails_pure _

theorem fails_taskCandidates (w : Workspace) (task : Text) :
    Fails Failure.Found (w.taskCandidates task) := by
  refine Fails.tryCatch fun failure => ?_
  split
  · exact fails_pure _
  next h =>
    refine fails_throw ?_
    cases hn : failure.isNotFound with
    | false => exact hn
    | true => exact absurd (by simp [hn]) h

theorem fails_decisionCandidates (w : Workspace) (r : Request) :
    Fails Failure.Found (w.decisionCandidates r) := by
  refine (fails_lift get).bind fun s => Fails.bind (Work.fails_ofExcept fun failure h => ?_)
    fun tasks => fails_gather w.fails_taskCandidates _
  cases ht : w.layout.tasks s.disk with
  | ok tasks =>
    rw [ht] at h
    cases h
  | error fault =>
    rw [ht] at h
    cases h
    exact Failure.found_file.mpr (Layout.found_of_tasks ht)

theorem fails_pageCandidates (w : Workspace) (task : Text) (p : Path) :
    Fails Failure.Found (w.pageCandidates task p) := by
  refine (Work.fails_unlessUnusable _).bind fun t => ?_
  cases t with
  | none => exact fails_pure _
  | some t => exact fails_pure _

/-- What the walk through a directory makes of one of its entries. -/
def pagesAt (w : Workspace) (depth : Nat) (p : Path) : FileAction (List Path) := do
  if ← w.disturbances.isDirectory p then w.pages depth p
  else return if p.isMarkdown then [p] else []

theorem pages_succ (w : Workspace) (depth : Nat) (dir : Path) :
    w.pages (depth + 1) dir = (do
      if !(← w.disturbances.isDirectory dir) then return []
      let names ← w.disturbances.list dir
      gather (fun name => w.pagesAt depth (dir.entry name))
        (names.filter (!Text.startsWith · ".")) : FileAction (List Path)) := rfl

theorem pages_of_directory (h : w.disturbances.isDirectory dir s = (true, s')) :
    w.pages (depth + 1) dir s = (w.disturbances.list dir >>= fun names =>
      gather (fun name => w.pagesAt depth (dir.entry name))
        (names.filter (!Text.startsWith · "."))) s' := by
  have hl : (liftM (w.disturbances.isDirectory dir) : FileAction Bool) s = (.ok true, s') :=
    congrArg (fun x : Bool × Session => (Except.ok x.1, x.2)) h
  exact bind_of_ok _ _ hl _

theorem pages_of_not_directory (h : w.disturbances.isDirectory dir s = (false, s')) :
    w.pages (depth + 1) dir s = (.ok [], s') := by
  have hl : (liftM (w.disturbances.isDirectory dir) : FileAction Bool) s = (.ok false, s') :=
    congrArg (fun x : Bool × Session => (Except.ok x.1, x.2)) h
  exact bind_of_ok _ _ hl _

theorem pagesAt_of_directory (h : w.disturbances.isDirectory p s = (true, s')) :
    w.pagesAt depth p s = w.pages depth p s' := by
  have hl : (liftM (w.disturbances.isDirectory p) : FileAction Bool) s = (.ok true, s') :=
    congrArg (fun x : Bool × Session => (Except.ok x.1, x.2)) h
  exact bind_of_ok _ _ hl _

theorem pagesAt_of_not_directory (h : w.disturbances.isDirectory p s = (false, s')) :
    w.pagesAt depth p s = (.ok (if p.isMarkdown then [p] else []), s') := by
  have hl : (liftM (w.disturbances.isDirectory p) : FileAction Bool) s = (.ok false, s') :=
    congrArg (fun x : Bool × Session => (Except.ok x.1, x.2)) h
  exact bind_of_ok _ _ hl _

/-- Whether the walk through a directory comes to one, itself or one below it, that is a directory
when the walk asks and is missing when the walk then lists it. -/
inductive LosesDirectory (w : Workspace) (fault : Fault) : Nat → Path → Session → Prop
  | itself {depth : Nat} {dir : Path} {s s₁ s₂ : Session}
    (there : w.disturbances.isDirectory dir s = (true, s₁))
    (gone : w.disturbances.list dir s₁ = (.error fault, s₂)) (missing : fault.kind = .notFound) :
    LosesDirectory w fault (depth + 1) dir s
  | inside {depth : Nat} {dir : Path} {s s₁ s₂ s₃ s₄ : Session} {names before after : List Text}
    {name : Text} {ps : List Path} (there : w.disturbances.isDirectory dir s = (true, s₁))
    (listed : w.disturbances.list dir s₁ = (.ok names, s₂))
    (visible : names.filter (!Text.startsWith · ".") = before ++ name :: after)
    (passed : gather (fun name => w.pagesAt depth (dir.entry name)) before s₂ = (.ok ps, s₃))
    (entered : w.disturbances.isDirectory (dir.entry name) s₃ = (true, s₄))
    (lost : LosesDirectory w fault depth (dir.entry name) s₄) :
    LosesDirectory w fault (depth + 1) dir s

/-- The walk finds something missing just where it comes to a directory that is gone when it is
listed. -/
theorem pages_not_found_iff : (∃ s', w.pages depth dir s = (.error fault, s')) ∧
    fault.kind = .notFound ↔ w.LosesDirectory fault depth dir s := by
  constructor
  · rintro ⟨⟨s', h⟩, hk⟩
    -- Along the walk: it fails at its own listing, or below the first entry for which it fails.
    induction depth generalizing dir s with
    | zero => cases h
    | succ depth ih =>
      rcases hb : w.disturbances.isDirectory dir s with ⟨there, s₁⟩
      cases there with
      | false =>
        rw [pages_of_not_directory hb] at h
        cases h
      | true =>
        rw [pages_of_directory hb] at h
        rcases bind_eq_error.mp h with h | ⟨names, s₂, hl, h⟩
        · exact .itself hb h hk
        · obtain ⟨before, name, after, ps, s₃, hn, hp, h⟩ := gather_eq_error.mp h
          rcases he : w.disturbances.isDirectory (dir.entry name) s₃ with ⟨entered, s₄⟩
          cases entered with
          | false =>
            rw [pagesAt_of_not_directory he] at h
            cases h
          | true =>
            rw [pagesAt_of_directory he] at h
            exact .inside hb hl hn hp he (ih h)
  · intro h
    induction h with
    | itself there gone missing =>
      exact ⟨⟨_, (pages_of_directory there).trans (bind_of_error _ _ gone _)⟩, missing⟩
    | inside there listed visible passed entered lost ih =>
      obtain ⟨⟨s', h⟩, hk⟩ := ih
      refine ⟨⟨s', ?_⟩, hk⟩
      rw [pages_of_directory there, bind_of_ok _ _ listed, visible]
      exact gather_eq_error.mpr ⟨_, _, _, _, _, rfl, passed, by rwa [pagesAt_of_directory entered]⟩

/-- Where no directory that is gone is said to be there, and none that is there is said to be
missing when it is listed, the walk loses none. -/
theorem not_losesDirectory
    (hask : ∀ n p, w.disturbances n ⟨.isDirectory, p⟩ ≠ some (.answering true))
    (hlist : ∀ n p fault, w.disturbances n ⟨.list, p⟩ = some (.failing fault) → fault.Found) :
    ¬ w.LosesDirectory fault depth dir s := by
  intro h
  induction h with
  | @itself depth dir s s₁ s₂ there gone missing =>
    unfold Disturbances.isDirectory Disturbances.ask at there
    unfold Disturbances.list Disturbances.perform at gone
    have htrue : s.disk.isDirectory dir = true ∧ s₁.disk = s.disk := by
      split at there
      next answer ha =>
        cases there
        exact absurd ha (hask _ _)
      next =>
        obtain ⟨hd, rfl⟩ := Prod.mk.inj there
        exact ⟨hd, rfl⟩
    split at gone
    next fault' hf =>
      cases gone
      exact hlist _ _ _ hf missing
    next =>
      obtain ⟨names, hn⟩ := Disk.list_of_isDirectory htrue.1
      simp only [htrue.2, hn] at gone
      cases gone
  | inside there listed visible passed entered lost ih => exact ih

theorem wikiPages_apply (w : Workspace) (s : Session) :
    w.wikiPages s = w.pages (s.disk.depth + 2) w.layout.wiki s := by
  have hget : (liftM (get : StateM Session Session) : FileAction Session) s = (.ok s, s) := rfl
  exact bind_of_ok _ _ hget _

/-- The wiki fails as a corpus because something is missing just where the walk through it loses a
directory: a page that is missing is passed over. -/
theorem wikiCandidates_not_found_iff :
    (∃ s', w.wikiCandidates r s = (.error failure, s')) ∧ failure.isNotFound = true ↔
      ∃ fault, w.LosesDirectory fault (s.disk.depth + 2) w.layout.wiki s ∧
        failure = .file "list wiki pages" r.task w.layout.wiki fault := by
  constructor
  · rintro ⟨⟨s', h⟩, hk⟩
    unfold wikiCandidates at h
    rcases bind_eq_error.mp h with h | ⟨pages, s₁, -, h⟩
    · obtain ⟨fault, hwalk, hf⟩ := Work.onFile_eq_error.mp h
      rw [hf, Failure.isNotFound_file] at hk
      rw [wikiPages_apply] at hwalk
      exact ⟨fault, pages_not_found_iff.mp ⟨⟨s', hwalk⟩, hk⟩, hf⟩
    · rw [fails_gather (w.fails_pageCandidates r.task) pages _ _ _ h] at hk
      cases hk
  · rintro ⟨fault, hl, hf⟩
    obtain ⟨⟨s', hwalk⟩, hk⟩ := pages_not_found_iff.mpr hl
    rw [← wikiPages_apply] at hwalk
    refine ⟨⟨s', ?_⟩, by rwa [hf, Failure.isNotFound_file]⟩
    unfold wikiCandidates
    exact bind_eq_error.mpr (Or.inl (Work.onFile_eq_error.mpr ⟨fault, hwalk, hf⟩))

/-- A check that fails because something is missing has had all of the other corpora, and has lost
a directory on its walk through the wiki. -/
theorem exists_losesDirectory (h : (w.conflicts r s).1 = .error failure)
    (hk : failure.isNotFound = true) : w.thresholds.proposal r ≠ [] ∧
      ∃ adrs s₁ decisions s₂ fault, w.adrCandidates r s = (.ok adrs, s₁) ∧
        w.decisionCandidates r s₁ = (.ok decisions, s₂) ∧
        w.LosesDirectory fault (s₂.disk.depth + 2) w.layout.wiki s₂ ∧
        failure = .file "list wiki pages" r.task w.layout.wiki fault := by
  by_cases hp : w.thresholds.proposal r = []
  · rw [conflicts_of_no_proposal hp] at h
    cases h
  rw [conflicts_of_proposal hp] at h
  rcases bind_eq_error.mp (Prod.ext h rfl) with h | ⟨cs, s₁, -, h⟩
  · rcases gather_cons_eq_error.mp h with h | ⟨adrs, s₁, ha, h⟩
    · rw [w.fails_adrCandidates r _ _ _ h] at hk
      cases hk
    rcases gather_cons_eq_error.mp h with h | ⟨decisions, s₂, hd, h⟩
    · rw [w.fails_decisionCandidates r _ _ _ h] at hk
      cases hk
    rcases gather_cons_eq_error.mp h with h | ⟨pages, s₃, -, h⟩
    · obtain ⟨fault, hl, hf⟩ := wikiCandidates_not_found_iff.mp ⟨⟨_, h⟩, hk⟩
      exact ⟨hp, adrs, s₁, decisions, s₂, fault, ha, hd, hl, hf⟩
    · cases h
  · cases h

/-- What is missing does not make a check fail as long as the listings of directories are not
disturbed in that way, whatever else is. -/
theorem found_of_conflicts
    (hask : ∀ n p, w.disturbances n ⟨.isDirectory, p⟩ ≠ some (.answering true))
    (hlist : ∀ n p fault, w.disturbances n ⟨.list, p⟩ = some (.failing fault) → fault.Found)
    (h : (w.conflicts r s).1 = .error failure) : failure.Found := by
  rw [Failure.Found, ← Bool.not_eq_true]
  intro hk
  obtain ⟨-, adrs, s₁, decisions, s₂, fault, -, -, hl, -⟩ := exists_losesDirectory h hk
  exact not_losesDirectory hask hlist hl

/-- A check fails because something is missing just where the walk through the wiki comes to a
directory that is gone when it is listed. Nothing else that is missing, in any corpus and at any
time, makes a check fail. -/
theorem conflicts_not_found_iff :
    (w.conflicts r s).1 = .error failure ∧ failure.isNotFound = true ↔
      w.thresholds.proposal r ≠ [] ∧ ∃ adrs s₁ decisions s₂ fault,
        w.adrCandidates r s = (.ok adrs, s₁) ∧ w.decisionCandidates r s₁ = (.ok decisions, s₂) ∧
        w.LosesDirectory fault (s₂.disk.depth + 2) w.layout.wiki s₂ ∧
        failure = .file "list wiki pages" r.task w.layout.wiki fault := by
  refine ⟨fun ⟨h, hk⟩ => exists_losesDirectory h hk, ?_⟩
  rintro ⟨hp, adrs, s₁, decisions, s₂, fault, ha, hd, hl⟩
  obtain ⟨⟨s', hw⟩, hk⟩ := wikiCandidates_not_found_iff.mpr ⟨fault, hl⟩
  refine ⟨?_, hk⟩
  have hsources : gather (fun source => source.candidates w r) Source.all s =
      (.error failure, s') := by
    refine gather_cons_eq_error.mpr (Or.inr ⟨adrs, s₁, ha, ?_⟩)
    refine gather_cons_eq_error.mpr (Or.inr ⟨decisions, s₂, hd, ?_⟩)
    exact gather_cons_eq_error.mpr (Or.inl hw)
  rw [conflicts_of_proposal hp, bind_of_error _ _ hsources]

/-- An empty wiki. -/
def wikiSession : Session :=
  ⟨⟨[("ws", .directory [("docs", .directory [("wiki", .directory [])])])], []⟩, 0⟩

/-- The workspace of the sample, where the wiki is removed after it was found and before it is
listed. -/
def losingWiki : Workspace :=
  { sample with
    disturbances := fun _ call =>
      if call = ⟨.list, ⟨"ws/docs/wiki"⟩⟩ then some (.failing .missing) else none }

def wikiRequest : Request := ⟨"T-1", "Drop queue retries", []⟩

theorem conflicts_losingWiki : ∃ failure,
    (losingWiki.conflicts wikiRequest wikiSession).1 = .error failure ∧
      failure.isNotFound = true := by
  refine ⟨.file "list wiki pages" "T-1" ⟨"ws/docs/wiki"⟩ .missing, ?_, by decide⟩
  have hp : losingWiki.thresholds.proposal wikiRequest ≠ [] := by decide +kernel
  rw [conflicts_of_proposal hp]
  rfl

end Workspace

end DesignRecords
