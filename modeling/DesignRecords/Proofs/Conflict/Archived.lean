import DesignRecords.Proofs.Conflict.Listed
import DesignRecords.Proofs.Workspace.Archive

namespace DesignRecords

variable {d d' : Disk} {l : Layout} {r : Place} {task asking id : Text} {c : Candidate}
  {w : Workspace} {s s' : Session} {request : Request} {xs : List Conflict} {doc : Document}
  {n : Nat}

namespace Layout

/-- Whether the same is recorded on two disks for others than the task that asks, though documents
may stand in other directories. -/
structure SameRecords (l : Layout) (d d' : Disk) (asking : Text) : Prop where
  listable : l.Listable d' ↔ l.Listable d
  adrs : ∀ p, l.AdrFile d' p ↔ l.AdrFile d p
  adrTexts : ∀ p, l.AdrFile d p → d'.readText p = d.readText p
  tickets : ∀ id, l.HasTicket d' id ↔ l.HasTicket d id
  documents : ∀ id, l.HasTicket d id → id ≠ asking →
    d'.readText (l.design d' id) = d.readText (l.design d id)
  pages : ∀ p, l.WikiPage d' p ↔ l.WikiPage d p
  pageTexts : ∀ p, l.WikiPage d p → d'.readText p = d.readText p

namespace SameRecords

theorem symm (h : l.SameRecords d d' asking) : l.SameRecords d' d asking where
  listable := h.listable.symm
  adrs p := (h.adrs p).symm
  adrTexts p hp := (h.adrTexts p ((h.adrs p).mp hp)).symm
  tickets id := (h.tickets id).symm
  documents id ht ho := (h.documents id ((h.tickets id).mp ht) ho).symm
  pages p := (h.pages p).symm
  pageTexts p hp := (h.pageTexts p ((h.pages p).mp hp)).symm

theorem recorded_of (h : l.SameRecords d d' asking) (hc : l.Recorded d asking c) :
    l.Recorded d' asking c := by
  cases hc with
  | adr file read active =>
    exact .adr ((h.adrs _).mpr file) ((h.adrTexts _ file).trans read) active
  | decision ticket other read mem =>
    exact .decision ((h.tickets _).mpr ticket) other ((h.documents _ ticket other).trans read) mem
  | requirement page read mem =>
    exact .requirement ((h.pages _).mpr page) ((h.pageTexts _ page).trans read) mem

theorem recorded (h : l.SameRecords d d' asking) :
    l.Recorded d asking c ↔ l.Recorded d' asking c := ⟨h.recorded_of, h.symm.recorded_of⟩

theorem accessible (h : l.SameRecords d d' asking) (ha : l.Accessible d asking) :
    l.Accessible d' asking where
  tickets := h.listable.mpr ha.tickets
  adrs p hp := by
    have hp := (h.adrs p).mp hp
    rw [h.adrTexts p hp]
    exact ha.adrs p hp
  documents id ht ho := by
    have ht := (h.tickets id).mp ht
    rw [h.documents id ht ho]
    exact ha.documents id ht ho
  pages p hp := by
    have hp := (h.pages p).mp hp
    rw [h.pageTexts p hp]
    exact ha.pages p hp

end SameRecords

end Layout

/-- A check finds the same conflicts where the same is recorded. -/
theorem Workspace.conflicts_of_sameRecords (hn : w.disturbances = .none) (hd : s.disk.Named)
    (hd' : d'.Named) (h : w.layout.SameRecords s.disk d' request.task)
    (hx : (w.conflicts request s).1 = .ok xs) : (w.conflicts request ⟨d', n⟩).1 = .ok xs := by
  by_cases hp : w.thresholds.proposal request = []
  · rw [conflicts_of_no_proposal hp] at hx ⊢
    exact hx
  · have ha := (conflicts_eq_ok_iff hn hd hp).mp ⟨xs, hx⟩
    have ha' := h.accessible ha
    obtain ⟨-, cs, hcs, hm⟩ := (finds_candidates (r := request) hn hd).resolve_right
      fun hf => hf.1 ha
    obtain ⟨-, cs', hcs', hm'⟩ := (finds_candidates (r := request) hn hd').resolve_right
      fun hf => hf.1 ha'
    rw [conflicts_of_proposal hp] at hx ⊢
    rw [(hcs.bind_pure _).result] at hx
    rw [(hcs'.bind_pure _).result (s := ⟨d', n⟩), ← hx]
    refine congrArg Except.ok (Thresholds.conflicts_congr fun c => ?_)
    rw [hm, hm', h.recorded]

namespace Layout

section

variable {p : Path} (h : d.Alike d' l.root r ["docs"]) (hd : d.Named)

include h hd

theorem adrFile_of_alike (hp : l.AdrFile d p) :
    l.AdrFile d' p ∧ d'.readText p = d.readText p := by
  obtain ⟨name, listed, markdown, rfl, file⟩ := hp
  have hdir := h.concat (n := "decisions") (by decide)
  have hfile := hdir.concat (hd.isName_of_lists listed)
  exact ⟨⟨name, hdir.lists_of_lists listed, markdown, rfl, hfile.isDirectory.trans file⟩,
    hfile.readText⟩

theorem wikiPage_of_alike (hp : l.WikiPage d p) :
    l.WikiPage d' p ∧ d'.readText p = d.readText p :=
  (h.concat (n := "wiki") (by decide)).page hd hp rfl

end

/-- The tasks can be listed where the directory of those put away is there, or could be made. -/
theorem listable_of_view (hd : d.isDirectory l.tickets = true)
    (hc : Disk.checked l.archive = .ok ()) (hr : d.reach l.root = .ok r)
    (hv : d.view (r ++ archiveNames) = none ∨ d.view (r ++ archiveNames) = some none) :
    l.Listable d := by
  have hn : ∀ n ∈ [] ++ [("tickets" : Text)], Path.IsName n := by decide
  have hn' : ∀ n ∈ archiveNames, Path.IsName n := by decide
  obtain ⟨names, hnames⟩ := Disk.list_of_isDirectory hd
  have htickets := ((Disk.isDirectory_within [] hr hn).mp hd).2
  have hl : d.locate l.archive = .ok (r ++ archiveNames) :=
    (Disk.locate_within ["tickets"] hr hn').mpr ⟨⟨hn', by decide, hc⟩, htickets, rfl⟩
  intro dir hdir fault hf
  simp only [List.mem_cons, List.not_mem_nil, or_false] at hdir
  rcases hdir with rfl | rfl
  · rw [hnames] at hf
    cases hf
  · rcases hv with hv | hv
    · rw [Disk.list_of_not_directory hl (by rw [hv]; simp), if_pos hv] at hf
      cases hf
      rfl
    · obtain ⟨names', hnames'⟩ := Disk.list_of_isDirectory (Disk.isDirectory_iff.mpr ⟨_, hl, hv⟩)
      rw [hnames'] at hf
      cases hf

/-- Whether a ticket can be put away: it is seen among the active ones, there is none of its name
among those put away, and no ticket goes by the name of their directory. -/
structure Movable (l : Layout) (d : Disk) (task : Text) : Prop where
  shows : Shows d l.tickets task
  free : task ≠ archiveName
  vacant : ¬ d.Lists l.archive task
  unreserved : ¬ Shows d l.archive archiveName

instance (l : Layout) (d : Disk) (task : Text) : Decidable (l.Movable d task) :=
  decidable_of_iff (Shows d l.tickets task ∧ task ≠ archiveName ∧ ¬ d.Lists l.archive task ∧
      ¬ Shows d l.archive archiveName)
    ⟨fun ⟨hs, hf, hv, hu⟩ => ⟨hs, hf, hv, hu⟩, fun ⟨hs, hf, hv, hu⟩ => ⟨hs, hf, hv, hu⟩⟩

namespace PutAway

variable (h : l.PutAway d d' r task)

include h

theorem listable : l.Listable d ∧ l.Listable d' := by
  have hc : Disk.checked l.archive = .ok () :=
    Disk.checked_of_entry isName_archive h.name h.takes.checked
  have hd : d.isDirectory l.tickets = true := by
    obtain ⟨place, hl, -⟩ := Disk.isDirectory_iff.mp h.directory
    exact Disk.isDirectory_of_locate_entry h.name (Path.entry_ne_nil isName_tickets) hl
  have hd' := isDirectory_tickets (l := l) (d := d') (by
    obtain ⟨place, hl, -⟩ := Disk.isDirectory_iff.mp h.isDirectory_archived_self
    exact Disk.isDirectory_of_locate_entry h.name (Path.entry_ne_nil isName_archive) hl)
  exact ⟨listable_of_view hd hc h.reach h.before,
    listable_of_view hd' hc h.reach' (Or.inr h.container)⟩

/-- The tasks with a ticket stay the same. -/
theorem hasTicket (hd : d.Named) (hv : Text.startsWith task "." = false) :
    l.HasTicket d' id ↔ l.HasTicket d id := by
  have hd' := h.named hd
  have htickets : l.tickets.text ≠ [] := Path.entry_ne_nil isName_tickets
  have harchive : l.archive.text ≠ [] := Path.entry_ne_nil isName_archive
  rw [HasTicket, HasTicket, shows_iff hd' htickets, shows_iff hd' harchive, shows_iff hd htickets,
    shows_iff hd harchive]
  by_cases hid : id = task
  · subst hid
    exact iff_of_true (Or.inr ⟨h.name, hv, h.isDirectory_archived_self⟩)
      (Or.inl ⟨⟨h.name, hv, h.directory⟩, h.free⟩)
  by_cases hfree : id = archiveName
  · subst hfree
    rw [h.isDirectory_archived isName_archive h.free.symm]
    simp
  by_cases hn : Path.IsName id
  · rw [h.isDirectory_active hn hid hfree, h.isDirectory_archived hn hid]
  · simp [hn]

theorem sameRecords (hd : d.Named) (hm : l.Movable d task)
    (hfits : task ≠ asking → Disk.checked (l.archivedDesign task) = .ok ()) :
    l.SameRecords d d' asking where
  listable := iff_of_true h.listable.2 h.listable.1
  adrs p := ⟨fun hp => (adrFile_of_alike h.alike_docs.symm (h.named hd) hp).1,
    fun hp => (adrFile_of_alike h.alike_docs hd hp).1⟩
  adrTexts p hp := (adrFile_of_alike h.alike_docs hd hp).2
  tickets id := h.hasTicket hd hm.shows.2.2
  documents id ht ho := by
    by_cases hid : id = task
    · subst hid
      exact h.readText_design_self (hfits ho)
    · have hfree : id ≠ archiveName := by
        rintro rfl
        rcases ht with ⟨-, hne⟩ | hs
        · exact hne rfl
        · exact hm.unreserved hs
      exact h.readText_design_of_ne (isName_of_hasTicket hd ht) hid hfree
        (listedFor_ticket hd ht hfree).isDirectory
  pages p := ⟨fun hp => (wikiPage_of_alike h.alike_docs.symm (h.named hd) hp).1,
    fun hp => (wikiPage_of_alike h.alike_docs hd hp).1⟩
  pageTexts p hp := (wikiPage_of_alike h.alike_docs hd hp).2

end PutAway

end Layout

namespace Workspace

variable {w' : Workspace} {name content : Text}

theorem document_congr (hn : w.disturbances = .none)
    (ht : d'.readText (w.layout.design d' id) = s.disk.readText (w.layout.design s.disk id))
    (h : (w.document id s).1 = .ok doc) : (w.document id ⟨d', n⟩).1 = .ok doc := by
  obtain ⟨t, hread, rfl⟩ := document_eq_ok (Prod.ext_iff.mpr ⟨h, rfl⟩)
  exact (answers_document_ok hn (ht.trans hread)).result (s := ⟨d', n⟩)

/-- A document that was changed is written in the directory of its ticket, and read from there. -/
theorem readText_of_updateSection (hl : w'.layout = w.layout)
    (h : w'.updateSection task name content s = (.ok doc, s')) :
    w.layout.design s'.disk task = w.layout.design s.disk task ∧
      s'.disk.readText (w.layout.design s.disk task) = .ok doc.render := by
  have ha := w'.atomic_updateSection task name content s
  rw [h] at ha
  rcases ha with ⟨-, ha⟩ | ⟨d, ⟨rfl, -⟩, hr⟩
  · exact ha.elim
  · rw [← hl]
    exact ⟨hr.path, Disk.file?_eq_text.mp hr.design⟩

theorem conflicts_of_putAway {r : Place} (hn : w.disturbances = .none) (hd : s.disk.Named)
    (h : w.layout.PutAway s.disk d' r task) (hm : w.layout.Movable s.disk task)
    (hfits : request.task = task ∨ w.thresholds.proposal request = [] ∨
      Disk.checked (w.layout.archivedDesign task) = .ok ())
    (hx : (w.conflicts request s).1 = .ok xs) : (w.conflicts request ⟨d', n⟩).1 = .ok xs := by
  by_cases hempty : w.thresholds.proposal request = []
  · rw [conflicts_of_no_proposal hempty] at hx ⊢
    exact hx
  · refine conflicts_of_sameRecords hn hd (h.named hd)
      (h.sameRecords hd hm fun hne => ?_) hx
    exact (hfits.resolve_left hne.symm).resolve_left hempty

/-- That a ticket is put away does not show: the tasks are listed as before, and their documents are
read and checks are answered as before. Later changes of its document are made where it stands now.
The root of the workspace has to stay at its place, and a disk has to take the longer path of the
document. -/
theorem putAway_transparent (hn : w.disturbances = .none) (hd : s.disk.Named)
    (hm : w.layout.Movable s.disk task) (hmove : w.layout.putAway s.disk task = .ok d')
    (hroot : d'.reach w.layout.root = s.disk.reach w.layout.root) :
    w.layout.design d' task = w.layout.archivedDesign task ∧
    (∃ ids, w.layout.tasks s.disk = .ok ids ∧ w.layout.tasks d' = .ok ids ∧ task ∈ ids) ∧
    (∀ id doc n, Path.IsName id → id ≠ Layout.archiveName →
      (id = task → Disk.checked (w.layout.archivedDesign task) = .ok ()) →
      (w.document id s).1 = .ok doc → (w.document id ⟨d', n⟩).1 = .ok doc) ∧
    (∀ request xs n,
      (request.task = task ∨ w.thresholds.proposal request = [] ∨
        Disk.checked (w.layout.archivedDesign task) = .ok ()) →
      (w.conflicts request s).1 = .ok xs → (w.conflicts request ⟨d', n⟩).1 = .ok xs) ∧
    ∀ (w' : Workspace) (s₁ s₂ : Session) (name content : Text) (doc : Document),
      w'.layout = w.layout → w.layout.design s₁.disk task = w.layout.archivedDesign task →
      w'.updateSection task name content s₁ = (.ok doc, s₂) →
      w.layout.design s₂.disk task = w.layout.archivedDesign task ∧
      s₂.disk.readText (w.layout.archivedDesign task) = .ok doc.render ∧
      (w.document task s₂).1 = .ok (.read task doc.render) := by
  have hname := hd.isName_of_lists hm.shows.1
  obtain ⟨r, h⟩ := Layout.putAway_of_ok hm.shows.2.1 hname hm.free hm.vacant hroot hmove
  refine ⟨h.design_self, ?_, ?_, ?_, ?_⟩
  · obtain ⟨-, ids, hids, hmem⟩ := (w.layout.tasks_cases s.disk).resolve_right
      fun hf => hf.1 h.listable.1
    obtain ⟨-, ids', hids', hmem'⟩ := (w.layout.tasks_cases d').resolve_right
      fun hf => hf.1 h.listable.2
    obtain rfl : ids' = ids := (Layout.ascending_tasks hids').eq_of_mem_iff
      (Layout.ascending_tasks hids) fun id => by rw [hmem', hmem, h.hasTicket hd hm.shows.2.2]
    exact ⟨ids', hids, hids', (hmem task).mpr (Or.inl ⟨hm.shows, hm.free⟩)⟩
  · intro id doc n hid hfree hfits hdoc
    refine document_congr hn ?_ hdoc
    by_cases he : id = task
    · subst he
      exact h.readText_design_self (hfits rfl)
    · obtain ⟨t, hread, -⟩ := document_eq_ok (Prod.ext_iff.mpr ⟨hdoc, rfl⟩)
      exact h.readText_design_of_ne hid he hfree (Layout.isDirectory_ticket hread)
  · intro request xs n hfits hx
    exact conflicts_of_putAway hn hd h hm hfits hx
  · intro w' s₁ s₂ name content doc hl hplace hupdate
    obtain ⟨hdesign, hread⟩ := readText_of_updateSection hl hupdate
    exact ⟨hdesign.trans hplace, hplace ▸ hread,
      (answers_document_ok hn (hdesign.symm ▸ hread)).result⟩

/-- The disk of `corpusSession` with one more ticket put away. -/
def filedDisk : Disk :=
  (sample.layout.putAway corpusSession.disk "T-1").toOption.getD corpusSession.disk

theorem putAway_filedDisk : sample.layout.putAway corpusSession.disk "T-1" = .ok filedDisk := by
  obtain ⟨d, hd⟩ := exists_of_isOk
    (by decide +kernel : (sample.layout.putAway corpusSession.disk "T-1").isOk = true)
  rw [filedDisk, hd]
  rfl

theorem putAway_transparent_corpus :
    corpusSession.disk.Named ∧ sample.layout.Movable corpusSession.disk "T-1" ∧
    sample.layout.putAway corpusSession.disk "T-1" = .ok filedDisk ∧
    filedDisk.reach sample.layout.root = corpusSession.disk.reach sample.layout.root ∧
    Disk.checked (sample.layout.archivedDesign "T-1") = .ok () ∧
    sample.layout.design filedDisk "T-1" = sample.layout.archivedDesign "T-1" ∧
    (∃ ids, sample.layout.tasks corpusSession.disk = .ok ids ∧
      sample.layout.tasks filedDisk = .ok ids ∧ ("T-1" : Text) ∈ ids) ∧
    (∃ doc, (sample.document "T-1" corpusSession).1 = .ok doc ∧
      (sample.document "T-1" ⟨filedDisk, 0⟩).1 = .ok doc) ∧
    (∃ xs, (sample.conflicts corpusRequest corpusSession).1 = .ok xs ∧
      (sample.conflicts corpusRequest ⟨filedDisk, 0⟩).1 = .ok xs) ∧
    ∃ doc s, sample.updateSection "T-1" "overview" "x" ⟨filedDisk, 0⟩ = (.ok doc, s) ∧
      (sample.document "T-1" s).1 = .ok (.read "T-1" doc.render) := by
  have hd : corpusSession.disk.Named := Disk.named_of_places (by decide +kernel)
  have hm : sample.layout.Movable corpusSession.disk "T-1" := by decide +kernel
  have hfits : Disk.checked (sample.layout.archivedDesign "T-1") = .ok () := by decide +kernel
  obtain ⟨d, r, hfiling⟩ := Layout.filing_of_ok hm.shows.2.1 (by decide) hm.free hm.vacant
    putAway_filedDisk
  have hroot := hfiling.reach_root (by decide)
  obtain ⟨hdesign, htasks, hdocuments, hchecks, hupdates⟩ :=
    putAway_transparent rfl hd hm putAway_filedDisk hroot
  obtain ⟨doc, hdoc⟩ := exists_of_isOk
    (by decide +kernel : (sample.document "T-1" corpusSession).1.isOk = true)
  obtain ⟨xs, hxs⟩ := exists_of_isOk
    (by decide +kernel : (sample.conflicts corpusRequest corpusSession).1.isOk = true)
  obtain ⟨doc', s, hupdate⟩ := exists_run_of_isOk (sample.updateSection "T-1" "overview" "x")
    ⟨filedDisk, 0⟩ (by decide +kernel)
  exact ⟨hd, hm, putAway_filedDisk, hroot, hfits, hdesign, htasks,
    ⟨doc, hdoc, hdocuments _ _ _ (by decide) (by decide) (fun _ => hfits) hdoc⟩,
    ⟨xs, hxs, hchecks _ _ _ (Or.inr (Or.inr hfits)) hxs⟩,
    doc', s, hupdate, (hupdates sample _ _ _ _ _ rfl hdesign hupdate).2.2⟩

def ticketEntries : List (Text × Entry) :=
  [("tickets", .directory [("T-1", .directory [("design.md", .file (.text "# Queue"))])])]

def ticketSession : Session := ⟨⟨[("ws", .directory ticketEntries)], []⟩, 0⟩

/-- A workspace whose root is reached through one of its tickets. -/
def detour : Workspace := { sample with layout := ⟨⟨"ws/tickets/T-1/../.."⟩⟩ }

def longNames : List Text := List.replicate 22 (List.replicate 46 '𐀀')

def deepSession : Session :=
  ⟨⟨[("ws", .directory (longNames.foldr (fun name entries => [(name, .directory entries)])
    ticketEntries))], []⟩, 0⟩

/-- A workspace whose path is so long that a disk takes the paths of active documents, but not of
those put away. -/
def crowded : Workspace := { sample with layout := ⟨Path.within ⟨"ws"⟩ longNames⟩ }

/-- With the ticket that its root is reached through, a workspace loses its tasks; and a document
cannot be read any more where its path is too long once it is put away. -/
theorem putAway_not_transparent :
    (ticketSession.disk.Named ∧ detour.layout.Movable ticketSession.disk "T-1" ∧
      detour.layout.tasks ticketSession.disk = .ok ["T-1".toList] ∧
      (detour.layout.putAway ticketSession.disk "T-1").toOption.map detour.layout.tasks =
        some (.ok [])) ∧
    deepSession.disk.Named ∧ crowded.layout.Movable deepSession.disk "T-1" ∧
    (crowded.document "T-1" deepSession).1.isOk = true ∧
    (crowded.layout.putAway deepSession.disk "T-1").toOption.map (fun d =>
      (crowded.document "T-1" ⟨d, 0⟩).1.isOk) = some false :=
  ⟨⟨Disk.named_of_places (by decide +kernel), by decide +kernel⟩,
    Disk.named_of_places (by decide +kernel), by decide +kernel⟩

end Workspace

end DesignRecords
