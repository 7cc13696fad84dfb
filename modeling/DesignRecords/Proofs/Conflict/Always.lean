import DesignRecords.Proofs.Conflict.Alone

namespace DesignRecords

variable {ok : Update → Prop} {u : Update} {d : Document} {s start : Session}

namespace Text

theorem lowercaseAfter_replicate (before : Text) (n : Nat) :
    lowercaseAfter before (List.replicate n 'a') = List.replicate n 'a' := by
  induction n generalizing before with
  | zero => rfl
  | succ n ih =>
    have ha : lowercaseOf 'a' = ['a'] := by decide
    rw [List.replicate_succ, lowercaseAfter, if_neg (by decide), ih, ha]
    rfl

theorem tokens_replicate {n : Nat} (hn : n ≠ 0) :
    tokens (List.replicate n 'a') = [List.replicate n 'a'] := by
  have hp : ∀ c ∈ List.replicate n 'a', (!isAlphanumeric c) = false := by
    intro c hc
    rw [List.eq_of_mem_replicate hc]
    decide
  rw [tokens, List.splitOnP_eq_singleton hp]
  simp [hn, lowercase, lowercaseAfter_replicate]

/-- There is always a term that is not among some texts. -/
theorem exists_fresh (known : List Text) :
    ∃ u : Text, u.tokens = [u] ∧ Thresholds.isTerm ⟨1, 1⟩ u = true ∧ u ∉ known := by
  have hlong : ∀ f ∈ fillers, f.length < 20 := by decide
  -- It is longer than each filler and longer than all the known texts together.
  refine ⟨List.replicate (20 + known.flatten.length) 'a', tokens_replicate (by omega), ?_, ?_⟩
  · have hf : List.replicate (20 + known.flatten.length) 'a' ∉ fillers := by
      intro hm
      have hl := hlong _ hm
      rw [List.length_replicate] at hl
      omega
    simp only [Thresholds.isTerm, List.length_replicate, Bool.and_eq_true, decide_eq_true_eq,
      Bool.not_eq_true', List.contains_eq_mem, decide_eq_false_iff_not]
    exact ⟨by omega, hf⟩
  · intro hm
    have hl := (List.sublist_flatten_of_mem hm).length_le
    rw [List.length_replicate] at hl
    omega

end Text

namespace Workspace

/-- Whether every decision that was recorded for a task is reported to the requests for other tasks
that have enough in common with it, however the document is worked on with changes of a class. -/
def AlwaysFound (ok : Update → Prop) : Prop :=
  ∀ (w : Workspace) (task c : Text) (s : Session) (r : Request) (matched : List Text)
    (xs : List Conflict), task.NamesTicket → task.Headless → w.disturbances = .none →
    w.layout.Stated task ok c s → r.task ≠ task → w.thresholds.Overlap r c matched →
    (w.conflicts r s).1 = .ok xs →
    ∃ x ∈ xs, x.kind = .previousDecision ∧ x.source = task ∧ x.matched = matched

theorem alwaysFound_of_clear (hok : ∀ u, ok u → u.Clear) : AlwaysFound ok := by
  intro w task c s r matched xs ht hhead hn hs hr ho h
  obtain ⟨t, htext, hold⟩ := hs.holds hok hhead ho.not_blank
  have hmem : Decision.stated c.flat ∈ (Document.read task t).decisions :=
    hold.decisions (by simp)
  refine reported_of_decision hn h (Layout.hasTicket_of_readText ht htext) hr.symm htext hmem
    (ho.congr ?_)
  have hd : (Decision.stated c.flat).decision ++ "\n" ++ (Decision.stated c.flat).rationale =
      c.flat ++ ['\n'] := by simp [Decision.stated]
  rw [hd, Text.tokens_append_feed]
  exact Text.tokens_singleLine_trim c

/-- The request of another task that has just one term. -/
def askingFor (u : Text) : Request := ⟨"T-2", u, []⟩

theorem overlap_askingFor {u : Text} (hu : u.tokens = [u])
    (ht : Thresholds.isTerm ⟨1, 1⟩ u = true) :
    Thresholds.Overlap ⟨1, 1⟩ (askingFor u) u [u] where
  sorted := List.pairwise_singleton _ _
  mem v := by
    have hterm : ∀ v, Thresholds.Term ⟨1, 1⟩ u v ↔ v = u := by
      intro v
      rw [Thresholds.Term, hu, List.mem_singleton]
      exact ⟨And.left, fun h => ⟨h, h ▸ ht⟩⟩
    have hask : Thresholds.Proposes ⟨1, 1⟩ (askingFor u) v ↔ v = u := by
      simp [Thresholds.Proposes, askingFor, hterm]
    rw [hterm, hask, List.mem_singleton, and_self]
  enough := Nat.le_refl _

/-- A session in which work goes on with the one document that there is. -/
structure Working (ok : Update → Prop) (start : Session) (d : Document) (s : Session) : Prop where
  continued : sample.layout.Continued "T-1" ok start s
  confined : Layout.Confined sampleSession.disk s.disk [("ws" : Text)] "T-1"
  kept : Kept s.disk [("ws" : Text)] "T-1" (some d)

theorem bare_sampleSession : sample.layout.Bare sampleSession.disk [("ws" : Text)] := ⟨rfl, rfl⟩

theorem Working.alone (h : Working ok start d s) :
    sample.layout.Alone s.disk [("ws" : Text)] "T-1" :=
  Layout.alone_of_confined bare_sampleSession h.confined (by decide)

theorem Working.change (h : Working ok start d s) (hu : ok u) :
    ∃ s', Working ok start (d.revised u sample.now) s' := by
  obtain ⟨name, content, hc⟩ := u.exists_section
  have htask : d.task = "T-1".toList := by
    obtain ⟨-, -, t, -, hread⟩ := h.kept
    rw [← hread, Document.task_read]
  obtain ⟨s', hs, hconf, hk⟩ := updateSection_rooted (w := sample) rfl h.alone.rooted
    (by decide) (by decide) hc h.kept
  rw [read_stamped htask] at hk
  have hcont := Layout.Continued.changed (w := sample) rfl h.continued
    (fun v hv => by rw [hc] at hv; cases hv; exact hu)
  rw [hs] at hcont
  exact ⟨s', hcont, h.confined.trans hconf, hk⟩

theorem Working.changes {us : List Update} (h : Working ok start d s) (hus : ∀ v ∈ us, ok v) :
    ∃ s', Working ok start (d.revisedBy us sample.now) s' := by
  induction us generalizing d s with
  | nil => exact ⟨s, h⟩
  | cons u us ih =>
    obtain ⟨s', h'⟩ := h.change (hus u (by simp))
    rw [Document.revisedBy_cons]
    exact ih h' fun v hv => hus v (List.mem_cons_of_mem u hv)

def madeSession : Session := (sample.create "T-1" sampleSession).2

theorem missing_sampleSession : (sample.hasDesign "T-1" sampleSession).1 = false := by
  decide +kernel

theorem create_sampleSession :
    (sample.create "T-1" sampleSession).1 = .ok (sample.stamped (.scaffold "T-1")) := by
  decide +kernel

def madeDocument : Document := .read "T-1" (sample.stamped (.scaffold "T-1")).render

theorem stable_madeDocument : madeDocument.Stable :=
  (Document.sound_scaffold "T-1").stable_read (by decide) (some sample.now)

theorem working_madeSession : Working ok madeSession madeDocument madeSession := by
  have hb := mirrored_of_bare bare_sampleSession
  obtain ⟨hconf, hk⟩ := create_rooted (w := sample) rfl hb.rooted (by decide) (by decide)
    (hb.kept "T-1" (by decide) (by decide))
  exact ⟨.refl, hconf, hk⟩

def statedSession (c : Text) : Session := (sample.updateSection "T-1" "decisions" c madeSession).2

theorem working_statedSession (c : Text) :
    (∃ d, (sample.updateSection "T-1" "decisions" c madeSession).1 = .ok d) ∧
      Working ok (statedSession c) (madeDocument.revised (.decision c) sample.now)
        (statedSession c) := by
  have h : Working (fun _ => True) madeSession madeDocument madeSession := working_madeSession
  have hname : Update.ofSection? "decisions" c = some (.decision c) := rfl
  obtain ⟨s', hs, hconf, hk⟩ := updateSection_rooted (w := sample) rfl h.alone.rooted
    (by decide) (by decide) hname h.kept
  have htask : madeDocument.task = "T-1".toList := Document.task_read _ _
  rw [read_stamped htask] at hk
  rw [statedSession, hs]
  exact ⟨⟨_, rfl⟩, .refl, h.confined.trans hconf, hk⟩

/-- Where each decision is found, no change ever hides the decisions. -/
theorem clear_of_alwaysFound (hc : ok (.component "x")) (ho : ok (.overview "x"))
    (hall : AlwaysFound ok) (hu : ok u) : u.Clear := by
  by_contra hn
  -- The decisions `ds` are read in the end whatever was recorded, so one is recorded with a term
  -- that none of them has.
  obtain ⟨ds, us, hus, hlost⟩ := Document.loses_of_not_clear hn sample.now
  obtain ⟨c, htokens, hterm, hfresh⟩ := Text.exists_fresh
    (ds.flatMap fun y => Text.tokens (y.decision ++ "\n".toList ++ y.rationale))
  obtain ⟨⟨d', hstated⟩, hwork⟩ := @working_statedSession ok c
  have hus : ∀ v ∈ us, ok v := by
    intro v hv
    rcases hus v hv with rfl | rfl | rfl
    · exact hu
    · exact hc
    · exact ho
  obtain ⟨s, hs⟩ := hwork.changes hus
  have hhead : Text.Headless "T-1" := by decide
  have hstable : (madeDocument.revised (.decision c) sample.now).Stable :=
    (stable_madeDocument.revised (u := .decision c) (by decide) trivial sample.now).1
  have htask : (madeDocument.revised (.decision c) sample.now).task = "T-1".toList := by
    rw [Document.revised, Document.task_read]
    exact Document.task_read _ _
  have hdecisions := hlost _ (htask ▸ hhead) hstable.overview
  have hoverlap := overlap_askingFor htokens hterm
  obtain ⟨xs, hxs, honly⟩ := conflicts_alone (w := { sample with thresholds := ⟨1, 1⟩ })
    (r := askingFor c) rfl hs.alone hs.kept (by decide) (by decide) (by decide)
    hoverlap.proposal_ne_nil
  have hs₁ : sample.layout.Stated "T-1" ok c s :=
    .intro rfl missing_sampleSession create_sampleSession .refl rfl hstated hs.continued
  have hfound := hall { sample with thresholds := ⟨1, 1⟩ } "T-1" c s (askingFor c) [c] xs
    ⟨by decide, by decide, by decide⟩ hhead rfl hs₁ (show ("T-2" : Text) ≠ "T-1" by decide)
    hoverlap hxs
  obtain ⟨x, hx, -, -, hm⟩ := hfound
  obtain ⟨y, hy, ho⟩ := honly x hx
  rw [hdecisions] at hy
  rw [hm] at ho
  exact hfresh (List.mem_flatMap.mpr ⟨y, hy, ((ho.mem c).mp (by simp)).1.1⟩)

/-- With changes of a class, every decision that is recorded is found by the checks of other tasks
just if no change of the class ever comes to hide the decisions. -/
theorem alwaysFound_iff_clear (hc : ok (.component "x")) (ho : ok (.overview "x")) :
    AlwaysFound ok ↔ ∀ u, ok u → u.Clear :=
  ⟨fun hall _ hu => clear_of_alwaysFound hc ho hall hu, alwaysFound_of_clear⟩

/-- A decision with marks and line breaks in it. -/
def queueDecision : Text := "Queue |\r\n\\retries| "

def queueRequest : Request := ⟨"T-2", "Drop retries", [⟨"src/queue.rs"⟩]⟩

/-- What is left of the decision once an overview has been given and another section changed. -/
def queueSession (overview : Text) : Session :=
  let s := (sample.updateSection "T-1" "overview" overview (statedSession queueDecision)).2
  (sample.updateSection "T-1" "components" "worker" s).2

theorem stated_queueSession {overview : Text} (hu : ok (.overview overview))
    (hc : ok (.component "worker")) :
    sample.layout.Stated "T-1" ok queueDecision (queueSession overview) := by
  obtain ⟨⟨d, hd⟩, -⟩ := @working_statedSession ok queueDecision
  refine .intro rfl missing_sampleSession create_sampleSession .refl rfl hd
    (.changed rfl (.changed rfl .refl ?_) ?_)
  · rintro u hu'
    cases hu'
    exact hu
  · rintro u hu'
    cases hu'
    exact hc

theorem overlap_queueRequest :
    sample.thresholds.Overlap queueRequest queueDecision ["queue", "retries"] :=
  Thresholds.overlap_iff.mpr ⟨by decide +kernel, by decide +kernel⟩

/-- Changes without headers that never come to hide the decisions. -/
def Plain (u : Update) : Prop := u.Unheaded ∧ u.Clear

/-- An overview in which a header comes to hide the components, but no decision. -/
theorem plain_componentsOverview : Plain (.overview " ## Components") :=
  ⟨⟨by decide, by decide⟩, Document.clearOverview_of_unheaded ⟨by decide, by decide⟩
    (by decide +kernel) (by decide +kernel)⟩

theorem alwaysFound_iff_clear_plain :
    Plain (.component "x") ∧ Plain (.overview "x") ∧
    ∃ xs, (sample.conflicts queueRequest (queueSession " ## Components")).1 = .ok xs ∧
      ∃ x ∈ xs, x.kind = .previousDecision ∧ x.source = "T-1" ∧
        x.matched = ["queue", "retries"] := by
  have hc : Plain (.component "x") := ⟨trivial, trivial⟩
  have ho : Plain (.overview "x") := ⟨⟨by decide, by decide⟩, Update.Safe.clear
    (Document.overviewContained_of_unheaded ⟨by decide, by decide⟩ (by decide))⟩
  refine ⟨hc, ho, ?_⟩
  have hall : AlwaysFound Plain := (alwaysFound_iff_clear hc ho).mpr fun _ hu => hu.2
  have hok : (sample.conflicts queueRequest (queueSession " ## Components")).1.isOk = true := by
    decide +kernel
  rcases hx : (sample.conflicts queueRequest (queueSession " ## Components")).1 with f | xs
  · rw [hx] at hok
    cases hok
  · have hstated := @stated_queueSession Plain _ plain_componentsOverview ⟨trivial, trivial⟩
    exact ⟨xs, rfl, hall sample "T-1" queueDecision _ queueRequest _ xs
      ⟨by decide, by decide, by decide⟩ (by decide) rfl hstated (by decide) overlap_queueRequest hx⟩

/-- An overview without headers that comes to start with one hides the decision. -/
theorem stated_decision_lost :
    sample.layout.Stated "T-1" Update.Unheaded queueDecision
      (queueSession " ## Technical Decisions") ∧
    (sample.updateSection "T-1" "overview" " ## Technical Decisions"
      (statedSession queueDecision)).1.isOk = true ∧
    (sample.updateSection "T-1" "components" "worker" (sample.updateSection "T-1" "overview"
      " ## Technical Decisions" (statedSession queueDecision)).2).1.isOk = true ∧
    sample.thresholds.Overlap queueRequest queueDecision ["queue", "retries"] ∧
    (sample.conflicts queueRequest (queueSession " ## Technical Decisions")).1 = .ok [] :=
  ⟨stated_queueSession ⟨by decide, by decide⟩ trivial, by decide +kernel, by decide +kernel,
    overlap_queueRequest, by decide +kernel⟩

end Workspace

end DesignRecords
