import DesignRecords.Conflict.Source
import DesignRecords.Proofs.Adr.Listing
import DesignRecords.Proofs.Document.ReadTable
import DesignRecords.Proofs.Workspace.Home

namespace DesignRecords

variable {d : Disk} {l : Layout} {w : Workspace} {r : Request} {task t : Text} {p dir : Path}
  {c : Candidate} {x : Decision}

def Adr.candidate (a : Adr) : Candidate :=
  ⟨.adrViolation, a.id, a.title, a.title ++ "\n" ++ a.decision⟩

def Decision.candidateOf (x : Decision) (task : Text) : Candidate :=
  ⟨.previousDecision, task, x.decision, x.decision ++ "\n" ++ x.rationale⟩

namespace Layout

/-- Whether a name is that of a visible directory in another one. -/
def Shows (d : Disk) (dir : Path) (name : Text) : Prop :=
  d.Lists dir name ∧ d.isDirectory (dir.entry name) = true ∧ Text.startsWith name "." = false

instance (d : Disk) (dir : Path) (name : Text) : Decidable (Shows d dir name) :=
  inferInstanceAs (Decidable (_ ∧ _ ∧ _))

theorem shows_iff {name : Text} (hd : d.Named) (hp : dir.text ≠ []) :
    Shows d dir name ↔ Path.IsName name ∧ Text.startsWith name "." = false ∧
      d.isDirectory (dir.entry name) = true := by
  constructor
  · rintro ⟨listed, there, visible⟩
    exact ⟨hd.isName_of_lists listed, visible, there⟩
  · rintro ⟨hn, visible, there⟩
    exact ⟨Disk.lists_of_isDirectory_entry hn hp there, there, visible⟩

/-- Whether a task has a ticket, active or archived. -/
def HasTicket (l : Layout) (d : Disk) (task : Text) : Prop :=
  Shows d l.tickets task ∧ task ≠ archiveName ∨ Shows d l.archive task

/-- Whether the directories of tickets can be listed, or are not there. -/
def Listable (l : Layout) (d : Disk) : Prop :=
  ∀ dir ∈ [l.tickets, l.archive], ∀ fault, d.list dir = .error fault → fault.kind = .notFound

theorem visibleDirectories_cases (d : Disk) (dir : Path) :
    (∃ names, visibleDirectories d dir = .ok names ∧
      (∀ fault, d.list dir = .error fault → fault.kind = .notFound) ∧
      ∀ name, name ∈ names ↔ Shows d dir name) ∨
    ∃ fault, visibleDirectories d dir = .error fault ∧ d.list dir = .error fault ∧
      fault.kind ≠ .notFound := by
  unfold visibleDirectories
  cases h : d.list dir with
  | ok names =>
    refine Or.inl ⟨_, rfl, (by simp), fun name => ?_⟩
    rw [List.mem_filter, Shows, Disk.lists_of_ok h]
    simp
  | error fault =>
    by_cases hk : fault.kind = .notFound
    · refine Or.inl ⟨[], if_pos hk, ?_, fun name => ?_⟩
      · rintro _ he
        cases he
        exact hk
      · refine ⟨fun hn => (by cases hn), ?_⟩
        rintro ⟨⟨names, hn, -⟩, -⟩
        rw [h] at hn
        cases hn
    · exact Or.inr ⟨fault, if_neg hk, rfl, hk⟩

theorem tasks_cases (l : Layout) (d : Disk) :
    (l.Listable d ∧ ∃ tasks, l.tasks d = .ok tasks ∧ ∀ task, task ∈ tasks ↔ l.HasTicket d task) ∨
    ¬ l.Listable d ∧ ∃ fault, l.tasks d = .error fault := by
  unfold tasks Listable
  simp only [List.forall_mem_cons, List.not_mem_nil, false_imp_iff, implies_true, and_true]
  rcases visibleDirectories_cases d l.tickets with ⟨active, ha, hal, hm⟩ | ⟨fault, hf, hlf, hk⟩
  · rcases visibleDirectories_cases d l.archive with ⟨archived, hb, hbl, hm'⟩ | ⟨fault, hf, hlf, hk⟩
    · refine Or.inl ⟨⟨hal, hbl⟩, _, by rw [ha, hb]; rfl, fun task => ?_⟩
      rw [mem_increasing, List.mem_append, List.mem_filter, hm, hm', HasTicket]
      simp
    · exact Or.inr ⟨fun h => hk (h.2 fault hlf), fault, by rw [ha, hf]; rfl⟩
  · exact Or.inr ⟨fun h => hk (h.1 fault hlf), fault, by rw [hf]; rfl⟩

def WikiPage (l : Layout) (d : Disk) (p : Path) : Prop := d.Page l.wiki p

def requirementAt (l : Layout) (p : Path) (line : Text) : Candidate :=
  ⟨.stakeholderRequirement, l.relative p, line, line⟩

end Layout

namespace Workspace

theorem finds_adrCandidate (hn : w.disturbances = .none) (task : Text) (p : Path) :
    Finds (w.adrCandidate task p) d (Usable (d.readText p)) fun c =>
      ∃ t, d.readText p = .ok t ∧ (Adr.read p t).active = true ∧ c = (Adr.read p t).candidate := by
  unfold adrCandidate
  refine (Work.finds_unlessUnusable (fun adr => if adr.active then [adr.candidate] else [])
    (answers_readAdr hn p) rfl fun adr => ?_).congr ?_ ?_
  · simp only
    split
    · rfl
    · rfl
  · cases d.readText p with
    | error fault => simp [Except.map, usable_error]
    | ok t => simp [Except.map, usable_ok]
  · intro _ c
    cases d.readText p with
    | error fault => simp [Except.map]
    | ok t => simp [Except.map]

theorem finds_adrCandidates (hn : w.disturbances = .none) :
    Finds (w.adrCandidates r) d (∀ p, w.layout.AdrFile d p → Usable (d.readText p)) fun c =>
      ∃ p, w.layout.AdrFile d p ∧ ∃ t, d.readText p = .ok t ∧ (Adr.read p t).active = true ∧
        c = (Adr.read p t).candidate :=
  (((finds_adrPaths hn).onFile _ _ _).bind_gather fun p _ =>
    finds_adrCandidate hn r.task p).congr (by simp) fun _ _ => Iff.rfl

theorem mem_documentCandidates {doc : Document} : c ∈ documentCandidates task doc ↔
    ∃ x ∈ doc.decisions, x.decision.blank = false ∧ c = x.candidateOf task := by
  simp only [documentCandidates, List.mem_map, List.mem_filter, Bool.not_eq_true']
  constructor
  · rintro ⟨x, ⟨hx, hb⟩, rfl⟩
    exact ⟨x, hx, hb, rfl⟩
  · rintro ⟨x, hx, hb, rfl⟩
    exact ⟨x, ⟨hx, hb⟩, rfl⟩

/-- The decisions in a task's document are candidates; a document that is passed over has none. -/
theorem finds_taskCandidates (hn : w.disturbances = .none) (task : Text) :
    Finds (w.taskCandidates task) d (Usable (d.readText (w.layout.design d task))) fun c =>
      ∃ t, d.readText (w.layout.design d task) = .ok t ∧
        ∃ x ∈ (Document.read task t).decisions, c = x.candidateOf task := by
  unfold taskCandidates
  cases ht : d.readText (w.layout.design d task) with
  | ok t =>
    have hdoc := (answers_document_ok hn ht).map (documentCandidates task)
    refine (hdoc.tryCatch_ok _).finds.congr (by simp [usable_ok]) fun _ c => ?_
    rw [mem_documentCandidates]
    constructor
    · rintro ⟨x, hx, -, rfl⟩
      exact ⟨t, rfl, x, hx, rfl⟩
    · rintro ⟨_, he, x, hx, rfl⟩
      cases he
      exact ⟨x, hx, Decision.not_blank_of_mem_readTable hx, rfl⟩
  | error fault =>
    obtain ⟨failure, hfail, hp⟩ := answers_document_error hn ht
    have hfail := hfail.map_error (documentCandidates task)
    by_cases hpass : fault.Passed
    · have hnone : Answers (if failure.isNotFound || failure.isInvalidData then pure []
          else throw failure : Work (List Candidate)) d (.ok []) := by
        rw [if_pos (hp.mpr hpass)]
        exact answers_pure [] d
      exact (hfail.tryCatch_error hnone).finds.congr (by simp [usable_error, hpass]) (by simp)
    · have hthrow : Answers (if failure.isNotFound || failure.isInvalidData then pure []
          else throw failure : Work (List Candidate)) d (.error failure) := by
        rw [if_neg fun h => hpass (hp.mp h)]
        exact answers_throw failure d
      refine ((hfail.tryCatch_error hthrow).finds_error fun _ => False).congr ?_ (by simp)
      simp [usable_error, hpass]

/-- The decisions of all tasks with a ticket but the one that asks are candidates, and none but
they. -/
theorem finds_decisionCandidates (hn : w.disturbances = .none) :
    Finds (w.decisionCandidates r) d (w.layout.Listable d ∧ ∀ task, w.layout.HasTicket d task →
        task ≠ r.task → Usable (d.readText (w.layout.design d task))) fun c =>
      ∃ task, w.layout.HasTicket d task ∧ task ≠ r.task ∧
        ∃ t, d.readText (w.layout.design d task) = .ok t ∧
          ∃ x ∈ (Document.read task t).decisions, c = x.candidateOf task := by
  apply Finds.of_get (g := fun disk => Work.ofExcept ((w.layout.tasks disk).mapError
    (.file "list tickets" r.task w.layout.tickets)) >>= fun tasks =>
      gather w.taskCandidates (tasks.filter (· ≠ r.task)))
  rcases w.layout.tasks_cases d with ⟨hl, tasks, ht, hm⟩ | ⟨hl, fault, hf⟩
  · have hof : Answers (Work.ofExcept ((w.layout.tasks d).mapError
        (.file "list tickets" r.task w.layout.tickets))) d (.ok tasks) := by
      rw [ht]
      exact fun n => ⟨n, rfl⟩
    have hgather := @finds_gather _ _ _ d w.taskCandidates _ _ (tasks.filter (· ≠ r.task))
      fun task _ => finds_taskCandidates hn task
    refine (hof.finds_bind (f := fun tasks => gather w.taskCandidates (tasks.filter (· ≠ r.task)))
      hgather).congr ?_ ?_
    · simp only [List.mem_filter, hm, decide_eq_true_eq, and_imp]
      exact ⟨fun h => ⟨hl, h⟩, fun h => h.2⟩
    · intro _ c
      simp only [List.mem_filter, hm, decide_eq_true_eq, and_assoc]
  · have hof : Answers (Work.ofExcept ((w.layout.tasks d).mapError
        (.file "list tickets" r.task w.layout.tickets))) d
        (.error (.file "list tickets" r.task w.layout.tickets fault)) := by
      rw [hf]
      exact fun n => ⟨n, rfl⟩
    refine ((hof.bind_error _).finds_error fun _ => False).congr ?_ (by simp)
    simp [hl]

theorem finds_pageAt {p : Path} {depth : Nat}
    (h : d.isDirectory p = true → Finds (w.pages depth p) d True (d.Page p)) :
    Finds (do
      if ← Disturbances.none.isDirectory p then w.pages depth p
      else return if p.isMarkdown then [p] else []) d True (d.PageAt p) := by
  refine (answers_isDirectory p d).finds_bind ?_
  cases hdir : d.isDirectory p with
  | false =>
    refine (finds_pure _ d).congr Iff.rfl fun _ q => ?_
    cases hm : p.isMarkdown <;> simp [Disk.PageAt, hdir, hm]
  | true => exact (h hdir).congr Iff.rfl fun _ q => by simp [Disk.PageAt, hdir]

/-- The walk through directories finds the pages below them if it may go deeper than they do. -/
theorem finds_pages (hn : w.disturbances = .none) (hd : d.Named) (depth : Nat) (dir : Path)
    (deep : d.Shallow dir depth) : Finds (w.pages depth dir) d True (d.Page dir) := by
  -- By induction on how deep the walk may go; `deep` holds below each directory that is entered.
  induction depth generalizing dir with
  | zero =>
    refine (finds_pure [] d).congr Iff.rfl fun _ p => ⟨fun h => (by cases h), fun h => ?_⟩
    have hdir := deep.not_isDirectory
    rw [h.isDirectory] at hdir
    cases hdir
  | succ depth ih =>
    unfold pages
    rw [hn]
    refine (answers_isDirectory dir d).finds_bind ?_
    cases hdir : d.isDirectory dir with
    | false =>
      refine (finds_pure [] d).congr Iff.rfl fun _ p => ⟨fun h => (by cases h), fun h => ?_⟩
      rw [h.isDirectory] at hdir
      cases hdir
    | true =>
      obtain ⟨names, hnames⟩ := Disk.list_of_isDirectory hdir
      have hlist := answers_list dir d
      rw [hnames] at hlist
      refine hlist.finds_bind ?_
      refine (finds_gather fun name hname => finds_pageAt fun _ => ih (dir.entry name) ?_).congr
        (by simp) fun _ p => (Disk.page_iff_of_list hnames).symm
      have hlisted := (Disk.lists_of_ok hnames).mpr (List.mem_filter.mp hname).1
      exact hd.shallow_entry deep hlisted

theorem finds_wikiPages (hn : w.disturbances = .none) (hd : d.Named) :
    Finds w.wikiPages d True (w.layout.WikiPage d) := by
  apply Finds.of_get (g := fun disk => w.pages (disk.depth + 2) w.layout.wiki)
  exact finds_pages hn hd _ _ (Disk.shallow_of_depth_lt (by omega) _)

theorem finds_pageCandidates (hn : w.disturbances = .none) (task : Text) (p : Path) :
    Finds (w.pageCandidates task p) d (Usable (d.readText p)) fun c =>
      ∃ t, d.readText p = .ok t ∧ ∃ line ∈ Requirement.ofText t,
        c = w.layout.requirementAt p line := by
  unfold pageCandidates
  rw [hn]
  refine (Work.finds_unlessUnusable
    (fun t => (Requirement.ofText t).map (w.layout.requirementAt p)) (answers_readText p d) rfl
    fun t => rfl).congr Iff.rfl fun _ c => ?_
  simp only [List.mem_map, eq_comm]

theorem finds_wikiCandidates (hn : w.disturbances = .none) (hd : d.Named) :
    Finds (w.wikiCandidates r) d (∀ p, w.layout.WikiPage d p → Usable (d.readText p)) fun c =>
      ∃ p, w.layout.WikiPage d p ∧ ∃ t, d.readText p = .ok t ∧
        ∃ line ∈ Requirement.ofText t, c = w.layout.requirementAt p line :=
  (((finds_wikiPages hn hd).onFile _ _ _).bind_gather fun p _ =>
    finds_pageCandidates hn r.task p).congr (by simp) fun _ _ => Iff.rfl

theorem finds_wikiCandidates_of_missing (hn : w.disturbances = .none)
    (hd : d.isDirectory w.layout.wiki = false) :
    Finds (w.wikiCandidates r) d True fun _ => False := by
  have hpages : Finds w.wikiPages d True fun _ => False := by
    apply Finds.of_get (g := fun disk => w.pages (disk.depth + 2) w.layout.wiki)
    unfold pages
    rw [hn]
    refine (answers_isDirectory w.layout.wiki d).finds_bind ?_
    rw [hd]
    exact (finds_pure [] d).congr Iff.rfl (by simp)
  exact ((hpages.onFile _ _ _).bind_gather fun p _ => finds_pageCandidates hn r.task p).congr
    (by simp) (by simp)

end Workspace

end DesignRecords
