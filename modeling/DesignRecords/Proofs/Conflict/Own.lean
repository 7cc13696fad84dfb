import DesignRecords.Proofs.Conflict.Corpus

namespace DesignRecords

variable {d : Disk} {l : Layout} {w : Workspace} {r : Request} {s : Session} {task task' t : Text}
  {place : Place} {xs : List Conflict}

namespace Layout

/-- Whether the documents of two tasks stand at one place. -/
def SameDocument (l : Layout) (d : Disk) (task task' : Text) : Prop :=
  ∃ place, d.locate (l.design d task) = .ok place ∧ d.locate (l.design d task') = .ok place

/-- The document of a task stands in the directory of its name, among the tickets or among those
put away. -/
theorem place_of_locate_design (ht : Path.IsName task)
    (h : d.locate (l.design d task) = .ok place) :
    ∃ q, d.reach l.tickets = .ok q ∧ ∃ middle, (middle = [] ∨ middle = [archiveName]) ∧
      place = q ++ middle ++ [task] ++ ["design.md".toList] := by
  obtain ⟨-, home, hr, -, -, rfl⟩ := (Disk.locate_entry isName_design).mp h
  rcases l.ticket_cases d task with he | he
  · rw [he] at hr
    obtain ⟨q, hq, -, -, rfl⟩ := (Disk.reach_entry_eq_ok ht).mp hr
    exact ⟨q, hq, [], Or.inl rfl, by simp⟩
  · rw [he] at hr
    obtain ⟨a, ha, -, -, rfl⟩ := (Disk.reach_entry_eq_ok ht).mp hr
    obtain ⟨q, hq, -, -, rfl⟩ := (Disk.reach_entry_eq_ok isName_archive).mp ha
    exact ⟨q, hq, [archiveName], Or.inr rfl, by simp⟩

/-- Two names of tasks do not stand for one document. -/
theorem eq_of_sameDocument (ht : Path.IsName task) (ht' : Path.IsName task')
    (h : l.SameDocument d task task') : task = task' := by
  obtain ⟨place, hl, hl'⟩ := h
  obtain ⟨q, hq, middle, -, rfl⟩ := place_of_locate_design ht hl
  obtain ⟨q', -, middle', -, he⟩ := place_of_locate_design ht' hl'
  have hhome := (List.append_inj' he rfl).1
  exact (List.cons.inj (List.append_inj' hhome rfl).2).1

theorem readText_of_sameDocument (h : l.SameDocument d task task')
    (ht : d.readText (l.design d task) = .ok t) : d.readText (l.design d task') = .ok t := by
  obtain ⟨place, hl, hl'⟩ := h
  obtain ⟨place', hp, hv⟩ := Disk.readText_eq_ok.mp ht
  rw [hl] at hp
  cases hp
  exact Disk.readText_eq_ok.mpr ⟨place, hl', hv⟩

theorem SameDocument.symm (h : l.SameDocument d task task') : l.SameDocument d task' task := by
  obtain ⟨place, hl, hl'⟩ := h
  exact ⟨place, hl', hl⟩

theorem isName_of_hasTicket (hd : d.Named) (h : l.HasTicket d task) : Path.IsName task := by
  rcases h with ⟨⟨listed, -⟩, -⟩ | ⟨listed, -⟩
  · exact hd.isName_of_lists listed
  · exact hd.isName_of_lists listed

end Layout

namespace Workspace

/-- A task is told of its own decisions just where it asks under something other than the name of
its ticket, and its document has a decision with enough in common with its request. -/
theorem own_decision_reported_iff (hn : w.disturbances = .none) (hd : s.disk.Named)
    (h : (w.conflicts r s).1 = .ok xs) :
    (∃ x ∈ xs, x.kind = .previousDecision ∧ w.layout.SameDocument s.disk x.source r.task) ↔
      ¬ Path.IsName r.task ∧
      (∃ task, w.layout.HasTicket s.disk task ∧ w.layout.SameDocument s.disk task r.task) ∧
      ∃ t, s.disk.readText (w.layout.design s.disk r.task) = .ok t ∧
        ∃ x ∈ (Document.read r.task t).decisions, ∃ matched,
          w.thresholds.Overlap r (x.decision ++ "\n" ++ x.rationale) matched := by
  have hreport := fun kind source matched =>
    @mem_of_conflicts_eq_ok w r s xs kind source matched hn hd h
  constructor
  · rintro ⟨x, hx, hk, hsame⟩
    obtain ⟨c, hc, hck, hcs, ho⟩ :=
      (hreport .previousDecision x.source x.matched).mp ⟨x, hx, hk, rfl, rfl⟩
    cases hc with
    | adr file read active => cases hck
    | requirement page read mem => cases hck
    | @decision task t y ticket other read mem =>
      have hsource : task = x.source := hcs
      rw [← hsource] at hsame
      refine ⟨fun hname => other ?_, ⟨task, ticket, hsame⟩, t,
        Layout.readText_of_sameDocument hsame read, y, mem, x.matched, ho⟩
      exact Layout.eq_of_sameDocument (Layout.isName_of_hasTicket hd ticket) hname hsame
  · rintro ⟨hname, ⟨task, ticket, hsame⟩, t, read, y, mem, matched, ho⟩
    have hother : task ≠ r.task := by
      rintro rfl
      exact hname (Layout.isName_of_hasTicket hd ticket)
    have hread := Layout.readText_of_sameDocument hsame.symm read
    obtain ⟨x, hx, hk, hs, -⟩ := (hreport .previousDecision task matched).mpr
      ⟨y.candidateOf task, .decision ticket hother hread mem, rfl, rfl, ho⟩
    exact ⟨x, hx, hk, hs ▸ hsame⟩

def ownSession : Session :=
  ⟨⟨[("ws", .directory [
      ("tickets", .directory [
        ("T-1", .directory [
          ("design.md", .file (.text (Text.ofLines ["## Technical Decisions",
            "| Decision | Rationale | Source | Date |", "| Queue retries | | | |"])))])])])],
    []⟩, 0⟩

def ownRequest : Request := ⟨"./T-1", "Drop queue retries", []⟩

theorem own_decision_reported_iff_ownRequest :
    sample.disturbances = .none ∧ ownSession.disk.Named ∧
    ∃ xs, (sample.conflicts ownRequest ownSession).1 = .ok xs ∧
      ((∃ x ∈ xs, x.kind = .previousDecision ∧
          sample.layout.SameDocument ownSession.disk x.source ownRequest.task) ↔
        ¬ Path.IsName ownRequest.task ∧
        (∃ task, sample.layout.HasTicket ownSession.disk task ∧
          sample.layout.SameDocument ownSession.disk task ownRequest.task) ∧
        ∃ t, ownSession.disk.readText (sample.layout.design ownSession.disk ownRequest.task) =
          .ok t ∧ ∃ x ∈ (Document.read ownRequest.task t).decisions, ∃ matched,
            sample.thresholds.Overlap ownRequest (x.decision ++ "\n" ++ x.rationale) matched) := by
  have hd : ownSession.disk.Named := Disk.named_of_places (by decide +kernel)
  exact ⟨rfl, hd, _, rfl, own_decision_reported_iff rfl hd rfl⟩

/-- The only decision there is, its own, is reported to the task. -/
theorem own_decision_reported : ∃ xs, (sample.conflicts ownRequest ownSession).1 = .ok xs ∧
    xs.map (fun x => (x.kind, x.source)) = [(.previousDecision, "T-1".toList)] ∧
    sample.layout.SameDocument ownSession.disk "T-1" ownRequest.task := by
  refine ⟨_, rfl, by decide +kernel, [("ws" : Text), ("tickets" : Text), ("T-1" : Text),
    ("design.md" : Text)], ?_, ?_⟩
  · decide +kernel
  · decide +kernel

end Workspace

end DesignRecords
