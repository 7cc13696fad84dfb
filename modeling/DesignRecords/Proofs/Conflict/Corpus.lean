import DesignRecords.Proofs.Conflict.Candidate
import DesignRecords.Proofs.Conflict.Canonical

namespace DesignRecords

variable {d : Disk} {w : Workspace} {r : Request} {s : Session} {asking : Text}
  {xs : List Conflict} {kind : ConflictKind} {source : Text} {matched : List Text}

namespace Layout

/-- Whether something is recorded in a workspace for others than the task that asks: a decision
record that holds, a decision in the document of another task, or a requirement on a page. -/
inductive Recorded (l : Layout) (d : Disk) (asking : Text) : Candidate → Prop
  | adr {p : Path} {t : Text} (file : l.AdrFile d p) (read : d.readText p = .ok t)
    (active : (Adr.read p t).active = true) : Recorded l d asking (Adr.read p t).candidate
  | decision {task t : Text} {x : Decision} (ticket : l.HasTicket d task) (other : task ≠ asking)
    (read : d.readText (l.design d task) = .ok t) (mem : x ∈ (Document.read task t).decisions) :
    Recorded l d asking (x.candidateOf task)
  | requirement {p : Path} {t line : Text} (page : l.WikiPage d p) (read : d.readText p = .ok t)
    (mem : line ∈ Requirement.ofText t) : Recorded l d asking (l.requirementAt p line)

/-- Whether nothing that is to be listed or read fails, unless it is not there or no text. -/
structure Accessible (l : Layout) (d : Disk) (asking : Text) : Prop where
  tickets : l.Listable d
  adrs : ∀ p, l.AdrFile d p → Usable (d.readText p)
  documents : ∀ task, l.HasTicket d task → task ≠ asking → Usable (d.readText (l.design d task))
  pages : ∀ p, l.WikiPage d p → Usable (d.readText p)

end Layout

namespace Workspace

theorem finds_sources {ok₁ ok₂ ok₃ : Prop} {P₁ P₂ P₃ : Candidate → Prop}
    (hadrs : Finds (w.adrCandidates r) d ok₁ P₁)
    (hdecisions : Finds (w.decisionCandidates r) d ok₂ P₂)
    (hwiki : Finds (w.wikiCandidates r) d ok₃ P₃) :
    Finds (gather (fun source => source.candidates w r) Source.all) d (ok₁ ∧ ok₂ ∧ ok₃)
      fun c => P₁ c ∨ P₂ c ∨ P₃ c := by
  have hnone : Finds (gather (fun source => Source.candidates source w r) []) d True (· ∈ []) :=
    finds_pure [] d
  have hlast := hwiki.gather_cons (f := fun source => source.candidates w r) (a := Source.wiki)
    hnone
  have hlater := hdecisions.gather_cons (f := fun source => source.candidates w r)
    (a := Source.decisions) hlast
  have hall := hadrs.gather_cons (f := fun source => source.candidates w r)
    (a := Source.adrs) hlater
  exact hall.congr (by simp) (by simp)

/-- The candidates for a request are what is recorded for others. -/
theorem finds_candidates (hn : w.disturbances = .none) (hd : d.Named) :
    Finds (gather (fun source => source.candidates w r) Source.all) d
      (w.layout.Accessible d r.task) (w.layout.Recorded d r.task) := by
  refine (finds_sources (finds_adrCandidates hn) (finds_decisionCandidates hn)
    (finds_wikiCandidates hn hd)).congr ⟨?_, ?_⟩ fun _ c => ⟨?_, ?_⟩
  · rintro ⟨adrs, ⟨tickets, documents⟩, pages⟩
    exact ⟨tickets, adrs, documents, pages⟩
  · rintro ⟨tickets, adrs, documents, pages⟩
    exact ⟨adrs, ⟨tickets, documents⟩, pages⟩
  · rintro (⟨p, file, t, read, active, rfl⟩ | ⟨task, ticket, other, t, read, x, mem, rfl⟩ |
      ⟨p, page, t, read, line, mem, rfl⟩)
    · exact .adr file read active
    · exact .decision ticket other read mem
    · exact .requirement page read mem
  · rintro (⟨file, read, active⟩ | ⟨ticket, other, read, mem⟩ | ⟨page, read, mem⟩)
    · exact Or.inl ⟨_, file, _, read, active, rfl⟩
    · exact Or.inr (Or.inl ⟨_, ticket, other, _, read, _, mem, rfl⟩)
    · exact Or.inr (Or.inr ⟨_, page, _, read, _, mem, rfl⟩)

theorem conflicts_of_no_proposal (hp : w.thresholds.proposal r = []) :
    w.conflicts r = pure [] := conflictsWith_of_no_proposal hp Source.all

theorem conflicts_of_proposal (hp : w.thresholds.proposal r ≠ []) :
    w.conflicts r = gather (fun source => source.candidates w r) Source.all >>= fun cs =>
      pure (w.thresholds.conflicts (w.thresholds.proposal r) cs) :=
  conflictsWith_of_proposal hp Source.all

/-- A check that has something to compare is done just where all that is recorded can be had. -/
theorem conflicts_eq_ok_iff (hn : w.disturbances = .none) (hd : s.disk.Named)
    (hp : w.thresholds.proposal r ≠ []) :
    (∃ xs, (w.conflicts r s).1 = .ok xs) ↔ w.layout.Accessible s.disk r.task := by
  rw [conflicts_of_proposal hp]
  rcases finds_candidates (r := r) hn hd with ⟨ha, cs, hcs, -⟩ | ⟨ha, f, hf⟩
  · exact ⟨fun _ => ha, fun _ => ⟨_, (hcs.bind_pure _).result⟩⟩
  · refine ⟨?_, fun h => absurd h ha⟩
    rintro ⟨xs, hx⟩
    rw [(hf.bind_error _).result] at hx
    cases hx

/-- What a check reports is what is recorded for others and has enough in common with the
request. -/
theorem mem_of_conflicts_eq_ok (hn : w.disturbances = .none) (hd : s.disk.Named)
    (h : (w.conflicts r s).1 = .ok xs) :
    (∃ x ∈ xs, x.kind = kind ∧ x.source = source ∧ x.matched = matched) ↔
      ∃ c, w.layout.Recorded s.disk r.task c ∧ c.kind = kind ∧ c.source = source ∧
        w.thresholds.Overlap r c.text matched := by
  by_cases hp : w.thresholds.proposal r = []
  · rw [conflicts_of_no_proposal hp] at h
    cases h
    refine ⟨fun ⟨x, hx, _⟩ => (by cases hx), ?_⟩
    rintro ⟨c, -, -, -, ho⟩
    exact absurd hp ho.proposal_ne_nil
  · rw [conflicts_of_proposal hp] at h
    rcases finds_candidates (r := r) hn hd with ⟨-, cs, hcs, hmem⟩ | ⟨-, f, hf⟩
    · rw [(hcs.bind_pure _).result] at h
      cases h
      rw [Thresholds.mem_conflicts]
      simp only [hmem]
    · rw [(hf.bind_error _).result] at h
      cases h

/-- A check of a workspace in which all that is recorded can be had reports what is recorded for
others and has enough in common with the request, and nothing else. -/
theorem conflicts_complete (hn : w.disturbances = .none) (hd : s.disk.Named)
    (ha : w.layout.Accessible s.disk r.task) :
    ∃ xs, (w.conflicts r s).1 = .ok xs ∧ ∀ kind source matched,
      (∃ x ∈ xs, x.kind = kind ∧ x.source = source ∧ x.matched = matched) ↔
        ∃ c, w.layout.Recorded s.disk r.task c ∧ c.kind = kind ∧ c.source = source ∧
          w.thresholds.Overlap r c.text matched := by
  have hok : ∃ xs, (w.conflicts r s).1 = .ok xs := by
    by_cases hp : w.thresholds.proposal r = []
    · exact ⟨[], by rw [conflicts_of_no_proposal hp]; rfl⟩
    · exact (conflicts_eq_ok_iff hn hd hp).mpr ha
  obtain ⟨xs, hx⟩ := hok
  exact ⟨xs, hx, fun kind source matched => mem_of_conflicts_eq_ok hn hd hx⟩

/-- A decision record that holds and one that does not, a page of the wiki and a hidden one, two
tickets and one put away. -/
def corpusSession : Session :=
  let table (row : Text) : Text :=
    "## Technical Decisions
| Decision | Rationale | Source | Date |
".toList ++ row
  ⟨⟨[("ws", .directory [
      ("docs", .directory [
        ("decisions", .directory [
          ("0002-queue.md", .file (.text "# Queue retries
**Status:** Accepted
")),
          ("0003-old.MD", .file (.text "# Queue retries
**Status:** superseded by 2
"))]),
        ("wiki", .directory [
          ("team", .directory [("rules.md", .file (.text "- The queue MUST keep retries
"))]),
          (".drafts", .directory [("rules.md", .file (.text "Queue retries are REQUIRED"))])])]),
      ("tickets", .directory [
        ("T-1", .directory [
          ("design.md", .file (.text (table "| Queue\\|retries | | | |")))]),
        ("T-2", .directory [
          ("design.md", .file (.text (table "| Queue retries | | | |")))]),
        ("archive", .directory [
          ("T-0", .directory [
            ("design.md", .file (.text (table "| No queue | for retries | | |")))])])])])], []⟩, 0⟩

def corpusRequest : Request := ⟨"T-2", "Drop the queue", [⟨"src/retries.rs"⟩]⟩

theorem conflicts_corpus :
    sample.disturbances = .none ∧ corpusSession.disk.Named ∧
    sample.layout.Accessible corpusSession.disk corpusRequest.task ∧
    ∃ xs, (sample.conflicts corpusRequest corpusSession).1 = .ok xs ∧ ∀ kind source matched,
      (∃ x ∈ xs, x.kind = kind ∧ x.source = source ∧ x.matched = matched) ↔
        ∃ c, sample.layout.Recorded corpusSession.disk corpusRequest.task c ∧ c.kind = kind ∧
          c.source = source ∧ sample.thresholds.Overlap corpusRequest c.text matched := by
  have hd : corpusSession.disk.Named := Disk.named_of_places (by decide +kernel)
  have ha : sample.layout.Accessible corpusSession.disk corpusRequest.task :=
    (conflicts_eq_ok_iff rfl hd (by decide +kernel)).mp ⟨_, rfl⟩
  exact ⟨rfl, hd, ha, conflicts_complete rfl hd ha⟩

/-- Neither the record that is superseded nor the hidden page nor the own decision is reported. -/
example : ((sample.conflicts corpusRequest corpusSession).1.toOption.getD []).map
      (fun x => (x.kind, x.source, x.matched)) =
    ([(.adrViolation, "ADR-0002", ["queue", "retries"]),
      (.previousDecision, "T-0", ["queue", "retries"]),
      (.previousDecision, "T-1", ["queue", "retries"]),
      (.stakeholderRequirement, "docs/wiki/team/rules.md", ["queue", "retries"])] :
        List (ConflictKind × Text × List Text)) := by
  decide +kernel

end Workspace

end DesignRecords
