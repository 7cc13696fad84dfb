import DesignRecords.Proofs.Conflict.Corpus
import DesignRecords.Proofs.Document.Clear
import DesignRecords.Proofs.Workspace.Damage

namespace DesignRecords

variable {l : Layout} {task t c : Text} {ok : Update → Prop} {p : Document → Prop} {d : Disk}
  {s s' : Session} {w : Workspace} {r : Request} {matched : List Text} {xs : List Conflict}

/-- The sessions that work on the document of a task leads to from a session. The workspaces that do
the work share their layout alone, and other work may come in between if it leaves the disk as it
is. -/
inductive Layout.Continued (l : Layout) (task : Text) (ok : Update → Prop) (s : Session) :
    Session → Prop
  | refl : Continued l task ok s s
  | read {s' s'' : Session} (before : Continued l task ok s s') (same : s''.disk = s'.disk) :
      Continued l task ok s s''
  /-- A disturbance could keep the document from being seen, so that it is made anew. -/
  | created {w : Workspace} {s' : Session} (here : w.layout = l) (calm : w.disturbances = .none)
      (before : Continued l task ok s s') : Continued l task ok s (w.create task s').2
  | changed {w : Workspace} {s' : Session} {name content : Text} (here : w.layout = l)
      (before : Continued l task ok s s') (allowed : ∀ u ∈ Update.ofSection? name content, ok u) :
      Continued l task ok s (w.updateSection task name content s').2
  | populated {w : Workspace} {s' : Session} (here : w.layout = l)
      (before : Continued l task ok s s') (dated : w.Dated) :
      Continued l task ok s (w.populate task s').2

/-- The sessions in which a decision has been recorded: a document was made for a task that had
none, and it was worked on with changes of a class before and after the decision was added. -/
inductive Layout.Stated (l : Layout) (task : Text) (ok : Update → Prop) (c : Text) :
    Session → Prop
  | intro {w w' : Workspace} {s s' s'' : Session} {d d' : Document} (here : w.layout = l)
      (missing : (w.hasDesign task s).1 = false) (made : (w.create task s).1 = .ok d)
      (before : Continued l task ok (w.create task s).2 s') (there : w'.layout = l)
      (stated : (w'.updateSection task "decisions" c s').1 = .ok d')
      (after : Continued l task ok (w'.updateSection task "decisions" c s').2 s'') :
      Stated l task ok c s''

theorem Workspace.create_of_readText (hn : w.disturbances = .none)
    (h : s.disk.readText (w.layout.design s.disk task) = .ok t) :
    (w.create task s).2.disk = s.disk := by
  obtain ⟨place, hl, hv⟩ := Disk.readText_eq_ok.mp h
  have hd : (w.hasDesign task s).1 = true := by
    rw [hasDesign_apply hn, Disk.exists?, Disk.isDirectory,
      Disk.find_eq_ok.mpr ⟨hl, Disk.view_eq_file.mp hv⟩]
    rfl
  obtain ⟨s', hsame, hcreate⟩ := w.create_apply task s
  rw [hcreate, hd]
  exact ((reads_document w task).keeps s').trans hsame

/-- Work with changes of a class keeps a document of a kind that such changes keep. -/
theorem Layout.Continued.holds (h : l.Continued task ok s s')
    (hp : Document.Preserved task ok p) (hs : l.Holds task p s.disk) :
    l.Holds task p s'.disk := by
  induction h with
  | refl => exact hs
  | read _ same ih => exact same.symm ▸ ih
  | created here calm _ ih =>
    subst here
    obtain ⟨t, ht, -⟩ := id ih
    exact (Workspace.create_of_readText calm ht).symm ▸ ih
  | changed here _ allowed ih =>
    exact here ▸ Workspace.holds_updateSection hp allowed (here.symm ▸ ih)
  | populated here _ dated ih => exact here ▸ Workspace.holds_populate hp dated (here.symm ▸ ih)

structure Text.NamesTicket (task : Text) : Prop where
  name : Path.IsName task
  visible : Text.startsWith task "." = false
  free : task ≠ Layout.archiveName

/-- A task whose document can be read has a directory that is seen, unless its name hides it. -/
theorem Layout.shows_of_readText (hn : Path.IsName task) (hv : Text.startsWith task "." = false)
    (h : d.readText (l.design d task) = .ok t) :
    Shows d l.tickets task ∨ Shows d l.archive task := by
  have hdir := isDirectory_ticket h
  have shows : ∀ dir : Path, dir.text ≠ [] → d.isDirectory (dir.entry task) = true →
      Shows d dir task := fun dir hp hd => ⟨Disk.lists_of_isDirectory_entry hn hp hd, hd, hv⟩
  have htickets := shows l.tickets (Path.entry_ne_nil isName_tickets)
  have harchive := shows l.archive (Path.entry_ne_nil isName_archive)
  rcases l.ticket_cases d task with he | he
  · exact Or.inl (htickets (he ▸ hdir))
  · exact Or.inr (harchive (he ▸ hdir))

theorem Layout.hasTicket_of_readText (ht : task.NamesTicket)
    (h : d.readText (l.design d task) = .ok t) : l.HasTicket d task :=
  (shows_of_readText ht.name ht.visible h).imp_left fun hs => ⟨hs, ht.free⟩

namespace Workspace

/-- A decision in the document of another task is reported where it has enough in common with the
request. -/
theorem reported_of_decision {x : Decision} (hn : w.disturbances = .none)
    (h : (w.conflicts r s).1 = .ok xs) (ticket : w.layout.HasTicket s.disk task)
    (other : task ≠ r.task) (read : s.disk.readText (w.layout.design s.disk task) = .ok t)
    (mem : x ∈ (Document.read task t).decisions)
    (ho : w.thresholds.Overlap r (x.decision ++ "\n" ++ x.rationale) matched) :
    ∃ y ∈ xs, y.kind = .previousDecision ∧ y.source = task ∧ y.matched = matched := by
  rw [conflicts_of_proposal ho.proposal_ne_nil] at h
  obtain ⟨cs, s', hg, hx⟩ := bind_eq_ok _ _ h
  rw [hx] at h
  cases h
  have hg : (gather (fun source => Source.candidates source w r)
      [.adrs, .decisions, .wiki] ⟨s.disk, s.calls⟩).1 = .ok cs := congrArg Prod.fst hg
  have hadrs := finds_adrCandidates (r := r) (d := s.disk) hn
  have hdecisions := finds_decisionCandidates (r := r) (d := s.disk) hn
  obtain ⟨-, n, cs', hrest, hsub⟩ := Finds.of_gather_cons
    (f := fun source => Source.candidates source w r) (a := Source.adrs) hadrs hg
  obtain ⟨hfound, -⟩ := Finds.of_gather_cons
    (f := fun source => Source.candidates source w r) (a := Source.decisions) hdecisions hrest
  have hc := hsub (hfound (x.candidateOf task) ⟨task, ticket, other, t, read, x, mem, rfl⟩)
  exact Thresholds.mem_conflicts.mpr ⟨_, hc, rfl, rfl, ho⟩

theorem holds_of_shown {d : Document} (h : w.shown task s = .ok d) (hp : p d) :
    w.layout.Holds task p s.disk := by
  rcases hr : { w with disturbances := .none }.document task s with ⟨result, s'⟩
  rw [shown, hr] at h
  have h : result = .ok d := h
  subst h
  obtain ⟨t, ht, rfl⟩ := document_eq_ok hr
  exact ⟨t, ht, hp⟩

/-- A new document has no decisions, and keeps those that it gets. -/
theorem retains_scaffold (ht : task.Headless) (o : Option Instant) :
    (Document.read task { Document.scaffold task with updated := o }.render).Retains [] :=
  Document.retains_read (Document.sound_scaffold task).clear (List.nil_subset _) ht o

end Workspace

/-- A decision that has been recorded is in the document of its task, in the form in which it was
written. -/
theorem Layout.Stated.holds (h : l.Stated task ok c s) (hok : ∀ u, ok u → u.Clear)
    (ht : task.Headless) (hc : c.blank = false) :
    l.Holds task (Document.Retains [.stated c.flat]) s.disk := by
  have hxs : Decision.settledTable [.stated c.flat] = [.stated c.flat] := by
    simp [Decision.settledTable, Decision.settled, Decision.stated, Text.flat_flat,
      Text.flat_eq_nil, hc]
  obtain ⟨here, missing, made, before, there, stated, after⟩ := h
  subst here
  have hmade := Workspace.holds_created (Workspace.retains_scaffold ht _) missing made
  obtain ⟨t, htext, hold⟩ := before.holds ((Document.preserved_retains ht rfl).mono hok) hmade
  rw [← there] at htext
  have hshown := Workspace.updateSection_eq_ok (u := .decision c) rfl htext stated
  have hhead : (Document.read task t).task.Headless := by rwa [Document.task_read]
  have hstated := Workspace.holds_of_shown hshown (hold.clear.retains_stated hc hhead _)
  rw [there] at hstated
  exact after.holds ((Document.preserved_retains ht hxs).mono hok) hstated

end DesignRecords
