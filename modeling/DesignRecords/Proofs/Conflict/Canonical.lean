import DesignRecords.Conflict.Source
import DesignRecords.Proofs.Conflict.Score
import DesignRecords.Proofs.Workspace.Refinement
import DesignRecords.Proofs.Workspace.Undisturbed

namespace DesignRecords

variable {w : Workspace} {d : Disk} {s : Session} {r : Request} {sources : List Source}
  {held : Source → Except Failure (List Candidate)} {known : Source → List Candidate}
  {cs cs' : List Candidate}

section

variable {α β ε : Type} {f : α → Except ε (List β)} {g : α → List β} {as : List α} {bs : List β}

theorem gather_ok (g : α → List β) (as : List α) :
    gather (fun a => (.ok (g a) : Except ε (List β))) as = .ok (as.flatMap g) := by
  induction as with
  | nil => rfl
  | cons a as ih =>
    rw [gather, ih]
    rfl

/-- Of what has been gathered each part is the result of one member, and none is missing. -/
theorem mem_of_gather_eq_ok (h : gather f as = .ok bs) (b : β) :
    b ∈ bs ↔ ∃ a ∈ as, ∃ part, f a = .ok part ∧ b ∈ part := by
  induction as generalizing bs with
  | nil =>
    cases h
    simp
  | cons a as ih =>
    rw [gather] at h
    cases ha : f a with
    | error e =>
      rw [ha] at h
      cases h
    | ok part =>
      rw [ha] at h
      cases hr : gather f as with
      | error e =>
        rw [hr] at h
        cases h
      | ok rest =>
        rw [hr] at h
        cases h
        rw [List.mem_append, ih hr, List.exists_mem_cons_iff, ha]
        simp

end

namespace Thresholds

variable {th : Thresholds}

/-- Without a term in the proposal nothing is found. -/
theorem conflicts_of_no_proposal (hp : th.proposal r = []) (cs : List Candidate) :
    th.conflicts (th.proposal r) cs = [] := by
  rw [List.eq_nil_iff_forall_not_mem]
  intro x hx
  obtain ⟨c, -, matched, ho, -⟩ := mem_conflicts_iff.mp hx
  exact ho.proposal_ne_nil hp

theorem ascending_conflicts (th : Thresholds) (proposal : List Text) (cs : List Candidate) :
    Ascending (th.conflicts proposal cs) := ascending_increasing _

/-- The conflicts with some candidates do not depend on the order of these, nor on repetitions. -/
theorem conflicts_congr (h : ∀ c, c ∈ cs ↔ c ∈ cs') :
    th.conflicts (th.proposal r) cs = th.conflicts (th.proposal r) cs' := by
  refine (ascending_conflicts _ _ _).eq_of_mem_iff (ascending_conflicts _ _ _) fun x => ?_
  simp only [mem_conflicts_iff, h]

end Thresholds

namespace Workspace

/-- Whether it is known what each of some sources comes to for a request, however many calls have
been made on the disk before. -/
def Yields (w : Workspace) (d : Disk) (r : Request)
    (held : Source → Except Failure (List Candidate)) (sources : List Source) : Prop :=
  ∀ source ∈ sources, Answers (source.candidates w r) d (held source)

theorem conflictsWith_of_no_proposal (hp : w.thresholds.proposal r = []) (sources : List Source) :
    w.conflictsWith sources r = pure [] := by
  unfold conflictsWith
  rw [hp]
  rfl

theorem conflictsWith_of_proposal (hp : w.thresholds.proposal r ≠ []) (sources : List Source) :
    w.conflictsWith sources r = gather (fun source => source.candidates w r) sources >>= fun cs =>
      pure (w.thresholds.conflicts (w.thresholds.proposal r) cs) := by
  unfold conflictsWith
  simp [hp]

/-- A check comes to nothing where the proposal has no term, and to what its sources come to
otherwise. -/
theorem Yields.answers (h : w.Yields d r held sources) : Answers (w.conflictsWith sources r) d
    (if w.thresholds.proposal r = [] then .ok []
      else (gather held sources).map (w.thresholds.conflicts (w.thresholds.proposal r))) := by
  have hg := answers_gather h
  by_cases hp : w.thresholds.proposal r = []
  · rw [if_pos hp, conflictsWith_of_no_proposal hp]
    exact answers_pure [] d
  · rw [if_neg hp, conflictsWith_of_proposal hp]
    cases hr : gather held sources with
    | error e =>
      rw [hr] at hg
      exact hg.bind_error _
    | ok cs =>
      rw [hr] at hg
      exact hg.bind_pure _

/-- A proposal without terms is no exception where the sources come to something. -/
theorem Yields.answers_ok (h : w.Yields d r held sources) (hg : gather held sources = .ok cs) :
    Answers (w.conflictsWith sources r) d
      (.ok (w.thresholds.conflicts (w.thresholds.proposal r) cs)) := by
  have ha := h.answers
  rw [hg] at ha
  split at ha
  next hp => rwa [Thresholds.conflicts_of_no_proposal hp]
  next => exact ha

/-- What is reported is strictly increasing and has the conflicts with the candidates that have
enough in common with the request. It is what is left of these when they are sorted and each that is
equal to the one before it is dropped, and the same for all sources with the same candidates. -/
theorem conflictsWith_canonical (h : w.Yields s.disk r (fun source => .ok (known source)) sources) :
    ∃ xs, (w.conflictsWith sources r s).1 = .ok xs ∧ Ascending xs ∧ xs.Nodup ∧
      (∀ x, x ∈ xs ↔ ∃ source ∈ sources, ∃ c ∈ known source, ∃ matched,
        w.thresholds.Overlap r c.text matched ∧ x = c.conflict matched) ∧
      xs = sortedOnce ((sources.flatMap known).filterMap
        (w.thresholds.score (w.thresholds.proposal r))) ∧
      ∀ s' sources' (known' : Source → List Candidate),
        w.Yields s'.disk r (fun source => .ok (known' source)) sources' →
        (∀ c, (∃ source ∈ sources', c ∈ known' source) ↔ ∃ source ∈ sources, c ∈ known source) →
        (w.conflictsWith sources' r s').1 = .ok xs := by
  have hascending := w.thresholds.ascending_conflicts (w.thresholds.proposal r)
    (sources.flatMap known)
  refine ⟨_, (h.answers_ok (gather_ok known sources)).result, hascending, hascending.nodup,
    fun x => ?_, (w.thresholds.separated_score r _).increasing_eq_sortedOnce, ?_⟩
  · simp only [Thresholds.mem_conflicts_iff, List.mem_flatMap]
    constructor
    · rintro ⟨c, ⟨source, hsource, hc⟩, hx⟩
      exact ⟨source, hsource, c, hc, hx⟩
    · rintro ⟨source, hsource, c, hc, hx⟩
      exact ⟨c, ⟨source, hsource, hc⟩, hx⟩
  · intro s' sources' known' h' hsame
    rw [(h'.answers_ok (gather_ok known' sources')).result]
    refine congrArg Except.ok (Thresholds.conflicts_congr fun c => ?_)
    simpa only [List.mem_flatMap] using hsame c

/-- A source that has the same candidates for each request. -/
def fixedSource (cs : List Candidate) : Source := ⟨"notes", fun _ _ => pure cs⟩

theorem yields_fixedSource (w : Workspace) (d : Disk) (r : Request) (cs : List Candidate)
    (n : Nat) : w.Yields d r (fun _ => .ok cs) (List.replicate n (fixedSource cs)) := by
  intro source hs
  obtain ⟨-, rfl⟩ := List.mem_replicate.mp hs
  exact answers_pure cs d

/-- Two decisions of which one is named with words that stand behind a name in a description. -/
def quotedCandidates : List Candidate :=
  [⟨.previousDecision, "T-1", "Queue\" recorded in T-1 on: queue, retries", "Queue the retries"⟩,
    ⟨.previousDecision, "T-1", "Queue", "The queue has its retries"⟩]

def quotedRequest : Request := ⟨"T-2", "Drop queue retries", []⟩

/-- Two sources that say everything twice, and one that says it once and in another order. -/
theorem conflictsWith_canonical_quoted :
    (∀ cs n, sample.Yields sampleSession.disk quotedRequest (fun _ => .ok cs)
      (List.replicate n (fixedSource cs))) ∧
    ∃ xs, (sample.conflictsWith (List.replicate 2 (fixedSource
        (quotedCandidates ++ quotedCandidates))) quotedRequest sampleSession).1 = .ok xs ∧
      Ascending xs ∧ xs.length = 2 ∧
      (sample.conflictsWith (List.replicate 1 (fixedSource quotedCandidates.reverse))
        quotedRequest sampleSession).1 = .ok xs := by
  have h := yields_fixedSource sample sampleSession.disk quotedRequest
  obtain ⟨xs, hx, hascending, -, -, -, hsame⟩ :=
    conflictsWith_canonical (h (quotedCandidates ++ quotedCandidates) 2)
  have hlength : ((sample.conflictsWith (List.replicate 2 (fixedSource
      (quotedCandidates ++ quotedCandidates))) quotedRequest sampleSession).1.toOption.map
        List.length) = some 2 := by
    decide +kernel
  refine ⟨h, xs, hx, hascending, ?_,
    hsame sampleSession _ _ (h quotedCandidates.reverse 1) (by simp)⟩
  rw [hx] at hlength
  exact Option.some.inj hlength

end Workspace

end DesignRecords
