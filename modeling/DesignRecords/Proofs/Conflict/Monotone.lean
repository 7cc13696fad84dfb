import DesignRecords.Proofs.Conflict.Corpus

namespace DesignRecords

variable {sep : Char} {a b t u : Text} {r r' : Request} {matched : List Text}
  {cs : List Candidate} {x : Conflict}

theorem Text.tokens_append_cons (h : isAlphanumeric sep = false) (a b : Text) :
    Text.tokens (a ++ sep :: b) = Text.tokens a ++ Text.tokens b := by
  rw [tokens_eq_runs, runs_append_cons (by rw [h]; rfl), List.map_append, tokens_eq_runs,
    tokens_eq_runs]

/-- Whether a request proposes all that another one does for the same task, and perhaps more: text
after a separator, and files. -/
structure Request.Extends (r r' : Request) : Prop where
  task : r'.task = r.task
  changes : ∃ sep more, isAlphanumeric sep = false ∧ r'.changes = r.changes ++ sep :: more
  files : r.files ⊆ r'.files

namespace Thresholds

variable {th th' : Thresholds}

theorem term_append_cons (h : isAlphanumeric sep = false) :
    th.Term (a ++ sep :: b) u ↔ th.Term a u ∨ th.Term b u := by
  rw [Term, Text.tokens_append_cons h, List.mem_append, or_and_right, Term, Term]

/-- The terms of two texts with a separator between them are those of the one and of the other. -/
theorem terms_append_cons (h : isAlphanumeric sep = false) (a b : Text) :
    th.terms (a ++ sep :: b) = increasing (th.terms a ++ th.terms b) := by
  have hterms : Ascending (th.terms (a ++ sep :: b)) := ascending_increasing _
  refine hterms.eq_of_mem_iff (ascending_increasing _) fun u => ?_
  rw [mem_increasing, List.mem_append, mem_terms, mem_terms, mem_terms, term_append_cons h]

theorem Proposes.extends (h : th.Proposes r u) (he : r.Extends r') : th.Proposes r' u := by
  obtain ⟨sep, more, hsep, hchanges⟩ := he.changes
  refine h.imp (fun ht => ?_) fun ⟨p, hp, hs⟩ => ⟨p, he.files hp, hs⟩
  rw [hchanges]
  exact (term_append_cons hsep).mpr (Or.inl ht)

/-- Where more is a term and more is proposed, what overlapped still does, and in more terms. -/
theorem Overlap.mono (h : th.Overlap r t matched) (hterm : ∀ u, th.Term t u → th'.Term t u)
    (hproposes : ∀ u, th.Proposes r u → th'.Proposes r' u)
    (hshared : th'.sharedTerms ≤ th.sharedTerms) :
    ∃ matched', th'.Overlap r' t matched' ∧ matched ⊆ matched' := by
  have hsub : matched ⊆ th'.shared (th'.proposal r') t := fun u hu =>
    mem_shared.mpr ((h.mem u).mp hu |>.imp (hterm u) (hproposes u))
  refine ⟨_, overlap_iff.mpr ⟨rfl, ?_⟩, hsub⟩
  have hlength := h.sorted.length_le hsub
  have henough := h.enough
  rw [flagged, decide_eq_true_eq]
  omega

theorem isTerm_of_le (hl : th.termLength ≤ th'.termLength) (h : th'.isTerm u = true) :
    th.isTerm u = true := by
  simp only [isTerm, Bool.and_eq_true, decide_eq_true_eq] at h ⊢
  exact ⟨by omega, h.2⟩

/-- Only what was long enough before can be a term when terms have to be longer. -/
theorem Term.of_le (hl : th.termLength ≤ th'.termLength) (h : th'.Term t u) : th.Term t u :=
  ⟨h.1, isTerm_of_le hl h.2⟩

theorem Proposes.of_le (hl : th.termLength ≤ th'.termLength) (h : th'.Proposes r u) :
    th.Proposes r u :=
  h.imp (Term.of_le hl) fun ⟨p, hp, segment, hs, ht⟩ => ⟨p, hp, segment, hs, ht.of_le hl⟩

theorem Overlap.extends (h : th.Overlap r t matched) (he : r.Extends r') :
    ∃ matched', th.Overlap r' t matched' ∧ matched ⊆ matched' :=
  h.mono (fun _ hu => hu) (fun _ hu => hu.extends he) le_rfl

theorem Overlap.of_le (h : th'.Overlap r t matched) (hl : th.termLength ≤ th'.termLength)
    (hs : th.sharedTerms ≤ th'.sharedTerms) :
    ∃ matched', th.Overlap r t matched' ∧ matched ⊆ matched' :=
  h.mono (fun _ hu => hu.of_le hl) (fun _ hu => hu.of_le hl) hs

/-- The number of shared terms that makes an overlap has no part in which terms these are. -/
theorem overlap_sharedTerms {k : Nat} (hk : th.sharedTerms ≤ k) :
    { th with sharedTerms := k }.Overlap r t matched ↔
      th.Overlap r t matched ∧ k ≤ matched.length := by
  constructor
  · rintro ⟨sorted, mem, enough⟩
    simp only at enough
    exact ⟨⟨sorted, mem, by omega⟩, by omega⟩
  · rintro ⟨⟨sorted, mem, enough⟩, hlength⟩
    exact ⟨sorted, mem, by simp only; omega⟩

theorem conflicts_sharedTerms {k : Nat} (hk : th.sharedTerms ≤ k) (r : Request)
    (cs : List Candidate) :
    { th with sharedTerms := k }.conflicts ({ th with sharedTerms := k }.proposal r) cs =
      (th.conflicts (th.proposal r) cs).filter fun x => k ≤ x.matched.length := by
  refine (ascending_conflicts _ _ _).eq_of_mem_iff ((ascending_conflicts _ _ _).filter _)
    fun x => ?_
  rw [List.mem_filter, mem_conflicts_iff, mem_conflicts_iff, decide_eq_true_eq]
  constructor
  · rintro ⟨c, hc, matched, ho, rfl⟩
    obtain ⟨ho, hlength⟩ := (overlap_sharedTerms hk).mp ho
    exact ⟨⟨c, hc, matched, ho, rfl⟩, hlength⟩
  · rintro ⟨⟨c, hc, matched, ho, rfl⟩, hlength⟩
    exact ⟨c, hc, matched, (overlap_sharedTerms hk).mpr ⟨ho, hlength⟩, rfl⟩

end Thresholds

/-- Whether two conflicts come from one candidate, and the second has all terms of the first. -/
structure Conflict.Within (c : Candidate) (x x' : Conflict) : Prop where
  first : x = c.conflict x.matched
  second : x' = c.conflict x'.matched
  subset : x.matched ⊆ x'.matched

/-- Whether a candidate is among those that some sources hold. -/
def Candidate.HeldBy (held : Source → Except Failure (List Candidate)) (sources : List Source)
    (c : Candidate) : Prop := ∃ source ∈ sources, ∃ cs, held source = .ok cs ∧ c ∈ cs

namespace Workspace

variable {w : Workspace} {d : Disk} {task : Text} {sources : List Source} {n n' k : Nat}
  {held : Source → Except Failure (List Candidate)} {xs xs' : List Conflict} {th th' : Thresholds}

/-- The workspace with other thresholds. -/
def under (w : Workspace) (th : Thresholds) : Workspace := { w with thresholds := th }

@[simp]
theorem under_layout (w : Workspace) (th : Thresholds) : (w.under th).layout = w.layout := rfl

@[simp]
theorem under_disturbances (w : Workspace) (th : Thresholds) :
    (w.under th).disturbances = w.disturbances := rfl

/-- Whether some sources come to the same for all requests of a task, whatever is proposed and
whatever the thresholds are. -/
def Steady (w : Workspace) (d : Disk) (task : Text)
    (held : Source → Except Failure (List Candidate)) (sources : List Source) : Prop :=
  ∀ th (r : Request), r.task = task → (w.under th).Yields d r held sources

theorem pages_under (w : Workspace) (th : Thresholds) (depth : Nat) (p : Path) :
    (w.under th).pages depth p = w.pages depth p := by
  induction depth generalizing p with
  | zero => rfl
  | succ depth ih => simp only [pages, ih, under_disturbances]

theorem wikiPages_under (w : Workspace) (th : Thresholds) :
    (w.under th).wikiPages = w.wikiPages := by
  simp only [wikiPages, pages_under, under_layout]

/-- The sources look at the task that asks and at nothing else of a request, and at no threshold. -/
theorem candidates_of_mem_all {source : Source} (hs : source ∈ Source.all) (w : Workspace)
    (th : Thresholds) (r : Request) :
    source.candidates (w.under th) r = source.candidates w ⟨r.task, [], []⟩ := by
  simp only [Source.all, List.mem_cons, List.not_mem_nil, or_false] at hs
  rcases hs with rfl | rfl | rfl
  · rfl
  · rfl
  · change wikiCandidates _ _ = wikiCandidates _ _
    unfold wikiCandidates
    rw [wikiPages_under]
    rfl

/-- What is recorded in a workspace is the same for all requests of a task. -/
theorem steady_all (hn : w.disturbances = .none) (hd : d.Named) (task : Text) :
    w.Steady d task (fun source => (source.candidates w ⟨task, [], []⟩ ⟨d, 0⟩).1) Source.all := by
  have steady : ∀ {x : Work (List Candidate)} {ok : Prop} {P : Candidate → Prop},
      Finds x d ok P → Answers x d (x ⟨d, 0⟩).1 := by
    rintro x ok P (⟨-, cs, hx, -⟩ | ⟨-, e, hx⟩)
    · rwa [hx.result (s := ⟨d, 0⟩)]
    · rwa [hx.result (s := ⟨d, 0⟩)]
  rintro th r rfl source hs
  rw [candidates_of_mem_all hs]
  simp only [Source.all, List.mem_cons, List.not_mem_nil, or_false] at hs
  rcases hs with rfl | rfl | rfl
  · exact steady (finds_adrCandidates hn)
  · exact steady (finds_decisionCandidates hn)
  · exact steady (finds_wikiCandidates hn hd)

/-- A check that succeeds either had nothing to compare or all that its sources hold. -/
theorem Yields.cases_of_ok (h : w.Yields d r held sources)
    (hx : (w.conflictsWith sources r ⟨d, n⟩).1 = .ok xs) :
    (w.thresholds.proposal r = [] ∧ xs = []) ∨ ∃ cs, gather held sources = .ok cs ∧
      xs = w.thresholds.conflicts (w.thresholds.proposal r) cs := by
  rw [(h.answers).result (s := ⟨d, n⟩)] at hx
  split at hx
  next hp => exact Or.inl ⟨hp, (Except.ok.inj hx).symm⟩
  next =>
    cases hg : gather held sources with
    | error e =>
      rw [hg] at hx
      cases hx
    | ok cs =>
      rw [hg] at hx
      exact Or.inr ⟨cs, rfl, (Except.ok.inj hx).symm⟩

/-- Of two checks with the same sources, the one that finds each overlap of the other has a conflict
for each of its conflicts. -/
theorem Steady.exists_within (h : w.Steady d task held sources) (ht : r.task = task)
    (ht' : r'.task = task)
    (hmono : ∀ t matched, th.Overlap r t matched →
      ∃ matched', th'.Overlap r' t matched' ∧ matched ⊆ matched')
    (hx : ((w.under th).conflictsWith sources r ⟨d, n⟩).1 = .ok xs)
    (hx' : ((w.under th').conflictsWith sources r' ⟨d, n'⟩).1 = .ok xs')
    (hmem : x ∈ xs) : ∃ x' ∈ xs', ∃ c, c.HeldBy held sources ∧ x.Within c x' := by
  rcases (h th r ht).cases_of_ok hx with ⟨-, rfl⟩ | ⟨cs, hg, rfl⟩
  · cases hmem
  obtain ⟨c, hc, matched, ho, rfl⟩ := Thresholds.mem_conflicts_iff.mp hmem
  obtain ⟨matched', ho', hsub⟩ := hmono c.text matched ho
  have hx' := hx'
  rw [((h th' r' ht').answers_ok hg).result (s := ⟨d, n'⟩)] at hx'
  cases hx'
  exact ⟨c.conflict matched', Thresholds.mem_conflicts_iff.mpr ⟨c, hc, matched', ho', rfl⟩, c,
    (mem_of_gather_eq_ok hg c).mp hc, rfl, rfl, hsub⟩

theorem Steady.yields (h : w.Steady d task held sources) (ht : r.task = task) :
    w.Yields d r held sources := h w.thresholds r ht

theorem Steady.exists_of_extends (h : w.Steady d task held sources) (ht : r.task = task)
    (he : r.Extends r') (hx : (w.conflictsWith sources r ⟨d, n⟩).1 = .ok xs)
    (hx' : (w.conflictsWith sources r' ⟨d, n'⟩).1 = .ok xs') (hmem : x ∈ xs) :
    ∃ x' ∈ xs', ∃ c, c.HeldBy held sources ∧ x.Within c x' := by
  have hx : ((w.under w.thresholds).conflictsWith sources r ⟨d, n⟩).1 = .ok xs := hx
  have hx' : ((w.under w.thresholds).conflictsWith sources r' ⟨d, n'⟩).1 = .ok xs' := hx'
  exact h.exists_within ht (he.task.trans ht) (fun _ _ ho => ho.extends he) hx hx' hmem

theorem Steady.conflictsWith_sharedTerms (h : w.Steady d task held sources) (ht : r.task = task)
    (hk : w.thresholds.sharedTerms ≤ k) (hx : (w.conflictsWith sources r ⟨d, n⟩).1 = .ok xs) :
    ((w.under { w.thresholds with sharedTerms := k }).conflictsWith sources r ⟨d, n'⟩).1 =
      .ok (xs.filter fun x => k ≤ x.matched.length) := by
  rcases (h.yields ht).cases_of_ok hx with ⟨hp, rfl⟩ | ⟨cs, hg, rfl⟩
  · rw [conflictsWith_of_no_proposal (w := w.under { w.thresholds with sharedTerms := k }) hp]
    rfl
  · rw [((h _ r ht).answers_ok hg).result (s := ⟨d, n'⟩)]
    exact congrArg Except.ok (Thresholds.conflicts_sharedTerms hk r cs)

/-- Longer terms leave a check that succeeds successful. -/
theorem Steady.conflictsWith_termLength (h : w.Steady d task held sources) (ht : r.task = task)
    (hl : w.thresholds.termLength ≤ k) (hx : (w.conflictsWith sources r ⟨d, n⟩).1 = .ok xs) :
    ∃ xs', ((w.under { w.thresholds with termLength := k }).conflictsWith sources r ⟨d, n'⟩).1 =
        .ok xs' ∧
      ∀ x' ∈ xs', ∃ x ∈ xs, ∃ c, c.HeldBy held sources ∧ x'.Within c x := by
  obtain ⟨xs', hx'⟩ : ∃ xs', ((w.under { w.thresholds with termLength := k }).conflictsWith
      sources r ⟨d, n'⟩).1 = .ok xs' := by
    rcases (h.yields ht).cases_of_ok hx with ⟨hp, -⟩ | ⟨cs, hg, -⟩
    · refine ⟨[], ?_⟩
      rw [conflictsWith_of_no_proposal]
      · rfl
      · refine List.eq_nil_iff_forall_not_mem.mpr fun u hu => ?_
        have hu : w.thresholds.Proposes r u := (Thresholds.mem_proposal.mp hu).of_le hl
        rw [← Thresholds.mem_proposal, hp] at hu
        cases hu
    · exact ⟨_, ((h _ r ht).answers_ok hg).result (s := ⟨d, n'⟩)⟩
  have hx : ((w.under w.thresholds).conflictsWith sources r ⟨d, n⟩).1 = .ok xs := hx
  refine ⟨xs', hx', fun x' hmem => ?_⟩
  refine h.exists_within ht ht (fun _ _ ho => ?_) hx' hx hmem
  exact ho.of_le hl le_rfl

/-- A check finds no less for a request that proposes more, and no more with higher thresholds: of
the conflicts those stay that share enough terms, and longer terms only take terms away. A text
after a separator has its own terms, and a check that stops at an empty proposal has missed
nothing. -/
theorem conflictsWith_monotone (h : w.Steady d task held sources) :
    (∀ r r' n n' xs xs', r.task = task → r.Extends r' →
      (w.conflictsWith sources r ⟨d, n⟩).1 = .ok xs →
      (w.conflictsWith sources r' ⟨d, n'⟩).1 = .ok xs' →
      ∀ x ∈ xs, ∃ x' ∈ xs', x'.kind = x.kind ∧ x'.source = x.source ∧
        x'.recommendation = x.recommendation ∧ ∃ c, c.HeldBy held sources ∧ x.Within c x') ∧
    (∀ r n n' xs k, r.task = task → w.thresholds.sharedTerms ≤ k →
      (w.conflictsWith sources r ⟨d, n⟩).1 = .ok xs →
      ((w.under { w.thresholds with sharedTerms := k }).conflictsWith sources r ⟨d, n'⟩).1 =
        .ok (xs.filter fun x => k ≤ x.matched.length)) ∧
    (∀ r n n' xs k, r.task = task → w.thresholds.termLength ≤ k →
      (w.conflictsWith sources r ⟨d, n⟩).1 = .ok xs →
      ∃ xs', ((w.under { w.thresholds with termLength := k }).conflictsWith sources r ⟨d, n'⟩).1 =
          .ok xs' ∧
        ∀ x' ∈ xs', ∃ x ∈ xs, ∃ c, c.HeldBy held sources ∧ x'.Within c x) ∧
    (∀ sep a b, isAlphanumeric sep = false →
      w.thresholds.terms (a ++ sep :: b) =
        increasing (w.thresholds.terms a ++ w.thresholds.terms b)) ∧
    ∀ r n cs, r.task = task → gather held sources = .ok cs →
      (w.conflictsWith sources r ⟨d, n⟩).1 =
        .ok (w.thresholds.conflicts (w.thresholds.proposal r) cs) := by
  refine ⟨?_, ?_, ?_, fun sep a b hsep => Thresholds.terms_append_cons hsep a b, ?_⟩
  · intro r r' n n' xs xs' ht he hx hx' x hmem
    obtain ⟨x', hmem', c, hc, hw⟩ := h.exists_of_extends ht he hx hx' hmem
    refine ⟨x', hmem', ?_, ?_, ?_, c, hc, hw⟩
    all_goals
      rw [hw.first, hw.second]
      rfl
  · intro r n n' xs k ht hk hx
    exact h.conflictsWith_sharedTerms ht hk hx
  · intro r n n' xs k ht hl hx
    exact h.conflictsWith_termLength ht hl hx
  · intro r n cs ht hg
    exact ((h.yields ht).answers_ok hg).result (s := ⟨d, n⟩)

/-- A request that adds to what `corpusRequest` proposes. -/
def longerRequest : Request :=
  ⟨"T-2", "Drop the queue; keep the logs", [⟨"docs/retries.md"⟩, ⟨"src/retries.rs"⟩]⟩

theorem conflictsWith_monotone_corpus :
    ∃ held, sample.Steady corpusSession.disk "T-2" held Source.all ∧
      corpusRequest.Extends longerRequest ∧
      ∃ xs xs', (sample.conflictsWith Source.all corpusRequest ⟨corpusSession.disk, 0⟩).1 =
          .ok xs ∧
        (sample.conflictsWith Source.all longerRequest ⟨corpusSession.disk, 0⟩).1 = .ok xs' ∧
        xs ≠ [] ∧ (∀ x ∈ xs, ∃ x' ∈ xs', x'.source = x.source ∧ x.matched ⊆ x'.matched) ∧
        ((sample.under ⟨3, 4⟩).conflictsWith Source.all corpusRequest ⟨corpusSession.disk, 0⟩).1 =
          .ok (xs.filter fun x => 3 ≤ x.matched.length) := by
  have h := steady_all (w := sample) rfl
    (show corpusSession.disk.Named from Disk.named_of_places (by decide +kernel)) "T-2"
  have he : corpusRequest.Extends longerRequest :=
    ⟨rfl, ⟨';', " keep the logs", by decide +kernel, rfl⟩, by decide +kernel⟩
  obtain ⟨hmono, hshared, -⟩ := conflictsWith_monotone h
  have hok : ∀ r, ((sample.conflictsWith Source.all r ⟨corpusSession.disk, 0⟩).1.toOption.map
      List.isEmpty) = some false → ∃ xs,
        (sample.conflictsWith Source.all r ⟨corpusSession.disk, 0⟩).1 = .ok xs ∧ xs ≠ [] := by
    intro r hr
    cases hx : (sample.conflictsWith Source.all r ⟨corpusSession.disk, 0⟩).1 with
    | error e =>
      rw [hx] at hr
      cases hr
    | ok xs =>
      rw [hx] at hr
      exact ⟨xs, rfl, by rintro rfl; cases hr⟩
  obtain ⟨xs, hx, hne⟩ := hok corpusRequest (by decide +kernel)
  obtain ⟨xs', hx', -⟩ := hok longerRequest (by decide +kernel)
  refine ⟨_, h, he, xs, xs', hx, hx', hne, fun x hmem => ?_, ?_⟩
  · obtain ⟨x', hmem', -, hs, -, c, -, hw⟩ := hmono _ _ _ _ _ _ rfl he hx hx' x hmem
    exact ⟨x', hmem', hs, hw.subset⟩
  · exact hshared _ _ _ _ 3 rfl (by decide) hx

end Workspace

end DesignRecords
