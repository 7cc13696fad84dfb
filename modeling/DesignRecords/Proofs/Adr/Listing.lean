import DesignRecords.Adr.Listing
import DesignRecords.Proofs.Disk.Listing
import DesignRecords.Proofs.Workspace.Undisturbed

namespace DesignRecords

variable {d : Disk} {w : Workspace} {task t : Text} {p : Path}

/-- Whether a path is that of a decision record: a markdown file, or what a path that leads nowhere
looks like. -/
def Layout.AdrFile (l : Layout) (d : Disk) (p : Path) : Prop :=
  ∃ name, d.Lists l.decisions name ∧ (Path.mk name).isMarkdown = true ∧
    p = l.decisions.entry name ∧ d.isDirectory p = false

namespace Workspace

theorem finds_adrPaths (hn : w.disturbances = .none) :
    Finds w.adrPaths d True (w.layout.AdrFile d) := by
  unfold adrPaths
  rw [hn]
  refine (answers_isDirectory w.layout.decisions d).finds_bind ?_
  cases hd : d.isDirectory w.layout.decisions with
  | false =>
    refine (finds_pure [] d).congr Iff.rfl fun _ p => ?_
    refine ⟨fun h => (by cases h), ?_⟩
    rintro ⟨name, hl, -⟩
    rw [Disk.isDirectory_of_lists hl] at hd
    cases hd
  | true =>
    obtain ⟨names, hnames⟩ := Disk.list_of_isDirectory hd
    have hlist := answers_list w.layout.decisions d
    rw [hnames] at hlist
    refine (hlist.tryCatch_ok _).finds_bind ?_
    have hgather := @finds_gather _ _ _ d w.unlessDirectory (fun _ => True)
      (fun p q => d.isDirectory p = false ∧ q = p)
      ((names.filter fun name => (Path.mk name).isMarkdown).map w.layout.decisions.entry) ?_
    · refine hgather.congr (by simp) fun _ p => ?_
      simp only [List.mem_map, List.mem_filter, Layout.AdrFile, Disk.lists_of_ok hnames]
      constructor
      · rintro ⟨_, ⟨name, ⟨hm, hmd⟩, rfl⟩, hf, rfl⟩
        exact ⟨name, hm, hmd, rfl, hf⟩
      · rintro ⟨name, hm, hmd, rfl, hf⟩
        exact ⟨_, ⟨name, ⟨hm, hmd⟩, rfl⟩, hf, rfl⟩
    · intro p _
      unfold unlessDirectory
      rw [hn]
      refine (answers_isDirectory p d).finds_bind ?_
      refine (finds_pure _ d).congr Iff.rfl fun _ q => ?_
      cases d.isDirectory p <;> simp

theorem answers_readAdr (hn : w.disturbances = .none) (p : Path) :
    Answers (w.readAdr p) d ((d.readText p).map (Adr.read p)) := by
  unfold readAdr
  rw [hn]
  cases ht : d.readText p with
  | error fault =>
    have h := answers_readText p d
    rw [ht] at h
    exact h.bind_error _
  | ok t =>
    have h := answers_readText p d
    rw [ht] at h
    exact h.bind_pure _

theorem finds_linkTo (hn : w.disturbances = .none) (task : Text) (ticket p : Path) :
    Finds (w.linkTo task ticket p) d True fun a => ∃ t, d.readText p = .ok t ∧
      (Adr.read p t).source = some task ∧ a = w.adrLink ticket (Adr.read p t) := by
  unfold linkTo
  refine (Work.answers_attempt (answers_readAdr hn p)).finds_bind ?_
  cases d.readText p with
  | error fault => exact (finds_pure [] d).congr Iff.rfl (by simp)
  | ok t =>
    refine (finds_pure _ d).congr Iff.rfl fun _ a => ?_
    simp only [Except.ok.injEq, exists_eq_left']
    split
    next h => simp [h]
    next h => simp [h]

/-- Whether a text is the link to a decision record that came from a task. -/
def LinksTo (w : Workspace) (d : Disk) (task link : Text) : Prop :=
  ∃ p, w.layout.AdrFile d p ∧ ∃ t, d.readText p = .ok t ∧ (Adr.read p t).source = some task ∧
    link = w.adrLink (w.layout.ticket d task) (Adr.read p t)

/-- The links that are found are those to the decision records that came from the task. -/
theorem finds_relatedAdrs (hn : w.disturbances = .none) (task : Text) :
    Finds (w.relatedAdrs task) d True (w.LinksTo d task) := by
  have hticket : Answers (liftM (w.ticket task) : Work Path) d (.ok (w.layout.ticket d task)) :=
    fun n => ⟨n, rfl⟩
  refine (((finds_adrPaths hn).onFile "list ADR directory" task w.layout.decisions).bind
    fun paths hpaths => ?_).congr (and_self_iff) fun _ _ => Iff.rfl
  refine hticket.finds_bind ?_
  refine (finds_gather fun p _ => finds_linkTo hn task _ p).congr (by simp) fun _ a => ?_
  simp only [hpaths, LinksTo]

end Workspace

end DesignRecords
