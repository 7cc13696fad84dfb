import DesignRecords.Proofs.Conflict.Found
import DesignRecords.Proofs.Conflict.Own

namespace DesignRecords

variable {d : Disk} {l : Layout} {w : Workspace} {r : Request} {s s' : Session}
  {task id : Text} {ids : List Text} {doc : Document} {dir : Path} {cs : List Candidate}

namespace Layout

/-- The directory of the ticket for which a name stands in the list of tasks: an active one if there
is one, and else one that was put away. The directory of those put away is no ticket. -/
inductive ListedFor (l : Layout) (d : Disk) : Text → Path → Prop
  | active {id : Text} (shows : Shows d l.tickets id) (free : id ≠ archiveName) :
      ListedFor l d id (l.tickets.entry id)
  | archived {id : Text} (shows : Shows d l.archive id)
      (other : ¬ (Shows d l.tickets id ∧ id ≠ archiveName)) : ListedFor l d id (l.archive.entry id)

theorem mem_tasks (h : l.tasks d = .ok ids) : id ∈ ids ↔ l.HasTicket d id := by
  rcases l.tasks_cases d with ⟨-, tasks, ht, hm⟩ | ⟨-, fault, hf⟩
  · rw [h] at ht
    cases ht
    exact hm id
  · rw [h] at hf
    cases hf

theorem ascending_tasks (h : l.tasks d = .ok ids) : Ascending ids := by
  unfold tasks at h
  cases ha : visibleDirectories d l.tickets with
  | error fault =>
    rw [ha] at h
    cases h
  | ok active =>
    cases hb : visibleDirectories d l.archive with
    | error fault =>
      rw [ha, hb] at h
      cases h
    | ok archived =>
      rw [ha, hb] at h
      cases h
      exact ascending_increasing _

theorem entry_tickets_eq_archive (hn : Path.IsName id) :
    l.tickets.entry id = l.archive ↔ id = archiveName :=
  ⟨Path.entry_injective hn isName_archive, fun h => by rw [h, archive]⟩

theorem ListedFor.isDirectory (h : l.ListedFor d id dir) : d.isDirectory dir = true := by
  cases h with
  | active shows free => exact shows.2.1
  | archived shows other => exact shows.2.1

theorem ListedFor.ne_archive (h : l.ListedFor d id dir) (hn : Path.IsName id) :
    dir ≠ l.archive := by
  cases h with
  | active shows free => exact fun he => free ((entry_tickets_eq_archive hn).mp he)
  | archived shows other => exact Path.entry_ne_self hn

theorem Shows.isDirectory (h : Shows d dir id) : d.isDirectory dir = true :=
  Disk.isDirectory_of_lists h.1

theorem isDirectory_tickets (h : d.isDirectory l.archive = true) :
    d.isDirectory l.tickets = true := by
  obtain ⟨place, hl, -⟩ := Disk.isDirectory_iff.mp h
  exact Disk.isDirectory_of_locate_entry isName_archive (Path.entry_ne_nil isName_tickets) hl

/-- The directory of those put away passes for the ticket of its name. -/
theorem ticket_archiveName (h : d.isDirectory l.archive = true) :
    l.ticket d archiveName = l.archive := ticket_of_active h

theorem listedFor_ticket (hd : d.Named) (h : l.HasTicket d id) (hfree : id ≠ archiveName) :
    l.ListedFor d id (l.ticket d id) := by
  by_cases hdir : d.isDirectory (l.tickets.entry id) = true
  · rw [ticket_of_active hdir]
    rcases h with ⟨hs, -⟩ | hs
    · exact .active hs hfree
    · have hn := hd.isName_of_lists hs.1
      have hlists := Disk.lists_of_isDirectory_entry hn (Path.entry_ne_nil isName_tickets) hdir
      exact .active ⟨hlists, hdir, hs.2.2⟩ hfree
  · have hs : Shows d l.archive id := h.resolve_left fun hs => hdir hs.1.2.1
    rw [ticket_of_archived (by simpa using hdir) hs.2.1]
    exact .archived hs fun ht => hdir ht.1.2.1

/-- The list of tasks names the ticket that work on a task goes to, with one exception. -/
theorem listedFor_ticket_iff (hd : d.Named) (h : l.HasTicket d id) :
    (l.ListedFor d id (l.ticket d id) ↔ id ≠ archiveName) ∧
      (l.ticket d id = l.archive ↔ id = archiveName) := by
  have hn := isName_of_hasTicket hd h
  by_cases hfree : id = archiveName
  · have harchive : l.ticket d id = l.archive := by
      subst hfree
      rcases h with ⟨-, hne⟩ | hs
      · exact absurd rfl hne
      · exact ticket_archiveName hs.isDirectory
    refine ⟨⟨fun hl => absurd harchive (hl.ne_archive hn), fun hne => absurd hfree hne⟩, ?_⟩
    exact ⟨fun _ => hfree, fun _ => harchive⟩
  · have hl := listedFor_ticket hd h hfree
    exact ⟨⟨fun _ => hfree, fun _ => hl⟩, fun he => absurd he (hl.ne_archive hn),
      fun he => absurd he hfree⟩

end Layout

namespace Workspace

theorem readText_of_create (h : w.create task s = (.ok doc, s')) :
    ∃ t, s'.disk.readText (w.layout.design s'.disk task) = .ok t := by
  cases hb : (w.hasDesign task s).1 with
  | true =>
    obtain ⟨s₁, -, hcreate⟩ := w.create_apply task s
    rw [hcreate, hb, if_pos rfl] at h
    obtain ⟨t, ht, -⟩ := document_eq_ok h
    exact ⟨t, ((reads_document w task).disk h).symm ▸ ht⟩
  | false =>
    have hmade : (w.create task s).1 = .ok doc := by rw [h]
    obtain ⟨t, ht, -⟩ := holds_created (p := fun _ => True) trivial hb hmade
    rw [h] at ht
    exact ⟨t, ht⟩

/-- A task whose document has been made is listed, if the tickets put away can be listed. -/
theorem listed_of_create (hn : Path.IsName task) (hv : Text.startsWith task "." = false)
    (h : w.create task s = (.ok doc, s'))
    (ha : ∀ fault, s'.disk.list w.layout.archive = .error fault → fault.kind = .notFound) :
    ∃ ids, w.layout.tasks s'.disk = .ok ids ∧
      (task ∈ ids ↔ task ≠ Layout.archiveName ∨
        Layout.Shows s'.disk w.layout.archive Layout.archiveName) := by
  obtain ⟨t, ht⟩ := readText_of_create h
  have hshows := Layout.shows_of_readText hn hv ht
  have htickets : s'.disk.isDirectory w.layout.tickets = true :=
    hshows.elim (·.isDirectory) fun hs => Layout.isDirectory_tickets hs.isDirectory
  obtain ⟨names, hnames⟩ := Disk.list_of_isDirectory htickets
  have hl : w.layout.Listable s'.disk := by
    intro dir hdir fault hf
    simp only [List.mem_cons, List.not_mem_nil, or_false] at hdir
    rcases hdir with rfl | rfl
    · rw [hnames] at hf
      cases hf
    · exact ha fault hf
  obtain ⟨-, ids, hids, -⟩ := (w.layout.tasks_cases s'.disk).resolve_right fun hr => hr.1 hl
  refine ⟨ids, hids, ?_⟩
  rw [Layout.mem_tasks hids, Layout.HasTicket]
  by_cases hfree : task = Layout.archiveName
  · subst hfree
    simp
  · simpa [hfree] using hshows

/-- The decisions that are scanned for a request are those in the documents of the tasks listed, the
one that asks left out. -/
theorem mem_decisionCandidates (hn : w.disturbances = .none)
    (hids : w.layout.tasks s.disk = .ok ids) (h : (w.decisionCandidates r s).1 = .ok cs)
    (c : Candidate) : c ∈ cs ↔ ∃ id ∈ ids, id ≠ r.task ∧
      ∃ t, s.disk.readText (w.layout.design s.disk id) = .ok t ∧
        ∃ x ∈ (Document.read id t).decisions, c = x.candidateOf id := by
  rcases finds_decisionCandidates (r := r) (d := s.disk) hn with ⟨-, cs', hcs, hm⟩ | ⟨-, e, he⟩
  · rw [hcs.result] at h
    cases h
    simp only [hm, Layout.mem_tasks hids]
  · rw [he.result] at h
    cases h

/-- The tasks that are listed are those whose documents are worked on: a task whose document has
been made is listed, what is listed goes by the ticket that work goes to, and the decisions of just
these tasks are scanned. The name of the directory of those put away is the exception: a document
made for it stands in this directory and is not listed, and when it is listed, it is for another
ticket. -/
theorem tasks_iff_not_reserved (w : Workspace) :
    (∀ task s doc s', Path.IsName task → Text.startsWith task "." = false →
      w.create task s = (.ok doc, s') →
      (∃ t, s'.disk.readText (w.layout.design s'.disk task) = .ok t) ∧
      ((∀ fault, s'.disk.list w.layout.archive = .error fault → fault.kind = .notFound) →
        ∃ ids, w.layout.tasks s'.disk = .ok ids ∧
          (task ∈ ids ↔ task ≠ Layout.archiveName ∨
            Layout.Shows s'.disk w.layout.archive Layout.archiveName))) ∧
    (∀ d ids, d.Named → w.layout.tasks d = .ok ids → Ascending ids ∧ ∀ id ∈ ids,
      (w.layout.ListedFor d id (w.layout.ticket d id) ↔ id ≠ Layout.archiveName) ∧
        (w.layout.ticket d id = w.layout.archive ↔ id = Layout.archiveName)) ∧
    ∀ r s ids cs, w.disturbances = .none → w.layout.tasks s.disk = .ok ids →
      (w.decisionCandidates r s).1 = .ok cs → ∀ c, c ∈ cs ↔ ∃ id ∈ ids, id ≠ r.task ∧
        ∃ t, s.disk.readText (w.layout.design s.disk id) = .ok t ∧
          ∃ x ∈ (Document.read id t).decisions, c = x.candidateOf id := by
  refine ⟨?_, ?_, ?_⟩
  · intro task s doc s' hn hv h
    exact ⟨readText_of_create h, listed_of_create hn hv h⟩
  · intro d ids hd h
    refine ⟨Layout.ascending_tasks h, fun id hid => ?_⟩
    exact Layout.listedFor_ticket_iff hd ((Layout.mem_tasks h).mp hid)
  · intro r s ids cs hn hids h c
    exact mem_decisionCandidates hn hids h c

/-- A directory among the tickets put away that has their name. -/
def nestedSession : Session :=
  ⟨⟨[("ws", .directory [("tickets", .directory [("archive", .directory [
      ("archive", .directory []), ("T-1", .directory [])])])])], []⟩, 0⟩

theorem tasks_iff_not_reserved_nested :
    nestedSession.disk.Named ∧
    sample.layout.tasks nestedSession.disk = .ok ["T-1".toList, Layout.archiveName] ∧
    sample.layout.ListedFor nestedSession.disk "T-1"
      (sample.layout.ticket nestedSession.disk "T-1") ∧
    sample.layout.ticket nestedSession.disk Layout.archiveName = sample.layout.archive := by
  have hd : nestedSession.disk.Named := Disk.named_of_places (by decide +kernel)
  have hids : sample.layout.tasks nestedSession.disk =
      .ok ["T-1".toList, Layout.archiveName] := by decide +kernel
  obtain ⟨-, hlisted⟩ := (tasks_iff_not_reserved sample).2.1 _ _ hd hids
  exact ⟨hd, hids, (hlisted "T-1" (by decide)).1.mpr (by decide),
    (hlisted Layout.archiveName (by decide)).2.mpr rfl⟩

/-- A document made under the name of the directory of tickets put away is not listed, and the
ticket that is listed under this name is not the one its document is looked for in. -/
theorem reserved_task_unlisted :
    ((sample.create Layout.archiveName sampleSession).1.isOk = true ∧
      sample.layout.tasks (sample.create Layout.archiveName sampleSession).2.disk = .ok []) ∧
    sample.layout.tasks nestedSession.disk = .ok ["T-1".toList, Layout.archiveName] ∧
    sample.layout.ticket nestedSession.disk Layout.archiveName ≠
      sample.layout.archive.entry Layout.archiveName := by
  decide +kernel

end Workspace

end DesignRecords
