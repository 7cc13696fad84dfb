import DesignRecords.Proofs.Conflict.Found

namespace DesignRecords

variable {l : Layout} {d d' : Disk} {place : Place} {task task' t n : Text} {w : Workspace}
  {r : Request} {s : Session} {doc : Document}

/-- Whether the ticket of a task is all that there is in a workspace. -/
structure Layout.Alone (l : Layout) (d : Disk) (place : Place) (task : Text) : Prop where
  rooted : l.Rooted d place
  only : ∀ q ≠ [], place ++ q ≠ shelf place → ¬ home place task <+: place ++ q →
    d.view (place ++ q) = none

namespace Layout

/-- Changes in the directory of one task leave it alone in a workspace that was empty. -/
theorem alone_of_confined (hb : l.Bare d place) (hc : Confined d d' place task)
    (ht : task ≠ archiveName) : l.Alone d' place task where
  rooted := (mirrored_of_bare hb).rooted.confined hc ht
  only q hq hs hh := by
    rw [hc.elsewhere _ hs hh]
    obtain ⟨n, q, rfl⟩ := List.exists_cons_of_ne_nil hq
    have he : d.lookup? (place ++ n :: q) = (d.lookup? place).bind (Entry.below? (n :: q)) :=
      Entry.below?_append
    rw [Disk.view, he, hb.empty]
    rfl

theorem Alone.not_isDirectory_docs (h : l.Alone d place task) (hn : Path.IsName n) :
    d.isDirectory ((l.root.entry "docs").entry n) = false := by
  rw [← Bool.not_eq_true, Disk.isDirectory_iff]
  rintro ⟨q, hl, -⟩
  obtain ⟨-, q', hr, hv, -⟩ := (Disk.locate_entry hn).mp hl
  have hdocs : Path.IsName "docs" := ⟨by decide, by decide, by decide⟩
  rw [Disk.reach_entry hdocs, h.rooted.reach] at hr
  obtain ⟨-, -, rfl⟩ := (Disk.next_name hdocs).mp hr
  rw [h.only _ (by simp) (by simp [shelf]) (by simp [home, shelf])] at hv
  cases hv

theorem Alone.locate_archive (h : l.Alone d place task)
    (hs : d.view (shelf place) = some none) (hc : Disk.checked l.archive = .ok ()) :
    d.locate l.archive = .ok (home place archiveName) :=
  (Disk.locate_entry isName_archive).mpr
    ⟨hc, shelf place, h.rooted.reach_tickets, hs, by decide, rfl⟩

theorem Alone.listable (h : l.Alone d place task) (hs : d.view (shelf place) = some none)
    (ht : d.isDirectory l.tickets = true) (hc : Disk.checked l.archive = .ok ()) :
    l.Listable d := by
  intro dir hdir fault hf
  rcases List.mem_cons.mp hdir with rfl | hdir
  · obtain ⟨names, hnames⟩ := Disk.list_of_isDirectory ht
    rw [hnames] at hf
    cases hf
  · rcases List.mem_singleton.mp hdir with rfl
    rw [Disk.list, Disk.find_of_view_none (h.locate_archive hs hc) h.rooted.archive] at hf
    cases hf
    rfl

theorem Alone.eq_of_hasTicket (h : l.Alone d place task) (ht : l.HasTicket d task') :
    task' = task := by
  rcases ht with ⟨⟨hl, -⟩, hfree⟩ | ⟨hl, -⟩
  · obtain ⟨q, hq, -⟩ := Disk.isDirectory_iff.mp (Disk.isDirectory_of_lists hl)
    have hr := Disk.reach_of_locate hq
    rw [h.rooted.reach_tickets] at hr
    cases hr
    by_contra hne
    have hv : d.view (place ++ [("tickets" : Text), task']) = none := by
      refine h.only _ (by simp) (by simp [shelf]) ?_
      simp [home, shelf, Ne.symm hne]
    have hl := (Disk.lists_iff hq).mp hl
    rw [shelf, List.append_assoc] at hl
    exact hl hv
  · obtain ⟨q, hq, hv⟩ := Disk.isDirectory_iff.mp (Disk.isDirectory_of_lists hl)
    obtain ⟨-, q', hr, -, -, rfl⟩ := (Disk.locate_entry isName_archive).mp hq
    rw [h.rooted.reach_tickets] at hr
    cases hr
    have ha := h.rooted.archive
    rw [home] at ha
    rw [ha] at hv
    cases hv

end Layout

namespace Workspace

/-- Where the ticket of a task is all that there is, nothing but its decisions is reported. -/
theorem conflicts_alone (hn : w.disturbances = .none) (h : w.layout.Alone s.disk place task)
    (hk : Kept s.disk place task (some doc)) (ht : task.NamesTask) (hf : w.layout.Fits task)
    (hc : Disk.checked w.layout.archive = .ok ()) (hp : w.thresholds.proposal r ≠ []) :
    ∃ xs, (w.conflicts r s).1 = .ok xs ∧ ∀ x ∈ xs, ∃ y ∈ doc.decisions,
      w.thresholds.Overlap r (y.decision ++ "\n" ++ y.rationale) x.matched := by
  obtain ⟨hhome, -, t, hv, rfl⟩ := hk
  have hshelf : s.disk.view (shelf place) = some none := by
    refine Disk.view_of_append (q := [task]) ?_ (by simp)
    rw [← home, hhome]
    simp
  have hread : s.disk.readText (w.layout.design s.disk task) = .ok t := by
    rw [h.rooted.design ht.name]
    exact Disk.readText_eq_ok.mpr ⟨_, h.rooted.locate_design ht.name hf hhome, hv⟩
  have htickets : s.disk.isDirectory w.layout.tickets = true := by
    have hdir := Layout.isDirectory_ticket hread
    rw [h.rooted.ticket ht.name] at hdir
    obtain ⟨q, hl, -⟩ := Disk.isDirectory_iff.mp hdir
    exact Disk.isDirectory_of_locate_entry ht.name (Path.entry_ne_nil Layout.isName_tickets) hl
  have hadrs : Finds (w.adrCandidates r) s.disk True fun _ => False := by
    have hnone : ∀ p, ¬ w.layout.AdrFile s.disk p := by
      rintro p ⟨name, hl, -⟩
      have hdir := h.not_isDirectory_docs (n := "decisions") ⟨by decide, by decide, by decide⟩
      exact absurd (Disk.isDirectory_of_lists hl) (by rw [Layout.decisions, hdir]; simp)
    exact (finds_adrCandidates hn).congr (by simp [hnone]) (by simp [hnone])
  have hwiki := finds_wikiCandidates_of_missing (r := r) hn
    (h.not_isDirectory_docs (n := "wiki") ⟨by decide, by decide, by decide⟩)
  rcases finds_sources hadrs (finds_decisionCandidates hn) hwiki with
    ⟨-, cs, hcs, hmem⟩ | ⟨hno, -⟩
  · refine ⟨w.thresholds.conflicts (w.thresholds.proposal r) cs, ?_, fun x hx => ?_⟩
    · rw [conflicts_of_proposal hp]
      exact (hcs.bind_pure _).result
    · obtain ⟨c, hc, -, -, ho⟩ := Thresholds.mem_conflicts.mp ⟨x, hx, rfl, rfl, rfl⟩
      rcases (hmem c).mp hc with hc | ⟨task', ht', -, t', htext, y, hy, rfl⟩ | hc
      · cases hc
      · cases h.eq_of_hasTicket ht'
        rw [hread] at htext
        cases htext
        exact ⟨y, hy, ho⟩
      · cases hc
  · refine absurd ⟨trivial, ⟨h.listable hshelf htickets hc, fun task' ht' _ => ?_⟩, trivial⟩ hno
    rw [h.eq_of_hasTicket ht', hread]
    exact usable_ok t

end Workspace

end DesignRecords
