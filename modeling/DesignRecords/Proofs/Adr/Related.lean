import DesignRecords.Adr.Listing
import DesignRecords.Proofs.Adr.Metadata
import DesignRecords.Proofs.Workspace.Refinement
import DesignRecords.Proofs.Workspace.Sight

namespace DesignRecords

/-- Whether a name is that of a file, among what is seen, with a decision record that came from a
task. -/
structure Sight.RecordOf (seen : Sight) (l : Layout) (task name : Text) : Prop where
  directory : seen.isDirectory l.decisions = true
  listed : ∃ names, seen.list l.decisions = .ok names ∧ name ∈ names
  markdown : Path.Markdown name
  file : seen.isDirectory (l.decisions.entry name) = false
  source : ∃ t, seen.readText (l.decisions.entry name) = .ok t ∧
    Adr.GivesFirst Label.source t task

/-- Whether the directory of the records can be listed or is not there, whenever it is looked at. -/
def Workspace.ListsRecords (w : Workspace) (d : Disk) : Prop :=
  ∀ moment, (w.disturbances.sight d moment).isDirectory w.layout.decisions = true →
    ∀ fault, (w.disturbances.sight d moment).list w.layout.decisions = .error fault →
      fault.kind = .notFound

namespace Layout

variable {l : Layout} {d : Disk} {task name : Text}

/-- The way up from a ticket's directory to the root. -/
def climb (l : Layout) (d : Disk) (task : Text) : Text :=
  if !d.isDirectory (l.tickets.entry task) && d.isDirectory (l.archive.entry task) then "../../../"
  else "../../"

/-- The link from a ticket to the record with a file name. -/
def recordLink (l : Layout) (d : Disk) (task name : Text) : Text :=
  "[" ++ Adr.idOf name ++ "](" ++ l.climb d task ++ "docs/decisions/" ++ name ++ ")"

theorem link_ticket (ht : Path.IsName task) (hn : Path.IsName name) :
    l.link (l.ticket d task) (l.decisions.entry name) =
      l.climb d task ++ "docs/decisions/" ++ name := by
  have hdown : ∀ n ∈ [] ++ [("docs" : Text), ("decisions" : Text), name], Path.IsName n := by
    simpa using ⟨isName_docs, isName_decisions, hn⟩
  have hactive : l.link (l.tickets.entry task) (l.decisions.entry name) =
      "../../docs/decisions/" ++ name := by
    have hlink := @link_within l [] ["tickets", task] ["docs", "decisions", name]
      (by simpa using ⟨isName_tickets, ht⟩) hdown (by rintro _ ⟨⟩ _ ⟨⟩; decide)
    exact hlink.trans (by simp [Text.joined])
  have harchived : l.link (l.archive.entry task) (l.decisions.entry name) =
      "../../../docs/decisions/" ++ name := by
    have hlink := @link_within l [] ["tickets", archiveName, task] ["docs", "decisions", name]
      (by simpa using ⟨isName_tickets, isName_archive, ht⟩) hdown (by rintro _ ⟨⟩ _ ⟨⟩; decide)
    exact hlink.trans (by simp [Text.joined])
  rw [climb, ticket]
  cases d.isDirectory (l.tickets.entry task) with
  | true => exact hactive
  | false =>
    cases d.isDirectory (l.archive.entry task) with
    | true => exact harchived
    | false => exact hactive

end Layout

namespace Sight

/-- The names of the files with decision records, as they are seen. -/
def recordNames (seen : Sight) (l : Layout) : List Text :=
  if seen.isDirectory l.decisions then
    ((seen.list l.decisions).toOption.getD []).filter fun name =>
      (Path.mk name).isMarkdown && !seen.isDirectory (l.decisions.entry name)
  else []

/-- Whether the file with a name is seen to have a decision record that did not come from a task, or
cannot be read. -/
def passesOver (seen : Sight) (l : Layout) (task name : Text) : Bool :=
  match seen.readText (l.decisions.entry name) with
  | .ok t => (Adr.read (l.decisions.entry name) t).source ≠ some task
  | .error _ => true

variable {seen : Sight} {l : Layout} {task name : Text}

theorem passesOver_eq_false : seen.passesOver l task name = false ↔
    ∃ t, seen.readText (l.decisions.entry name) = .ok t ∧
      Adr.GivesFirst Label.source t task := by
  rw [passesOver]
  cases seen.readText (l.decisions.entry name) with
  | error fault => simp
  | ok t => simp [Adr.source_read]

theorem mem_filter_recordNames
    (h : ∀ names, seen.list l.decisions = .ok names → ∀ name ∈ names, Path.IsName name) :
    name ∈ (seen.recordNames l).filter (!seen.passesOver l task ·) ↔
      seen.RecordOf l task name := by
  rw [List.mem_filter, Bool.not_eq_true', passesOver_eq_false, recordNames]
  constructor
  · rintro ⟨hm, hs⟩
    split at hm
    next hd =>
      obtain ⟨hm, hf⟩ := List.mem_filter.mp hm
      obtain ⟨hmd, hf⟩ := Bool.and_eq_true_iff.mp hf
      cases hl : seen.list l.decisions with
      | error fault =>
        rw [hl] at hm
        cases hm
      | ok names =>
        rw [hl] at hm
        have hn := h names hl name hm
        exact ⟨hd, ⟨names, hl, hm⟩, (Path.isMarkdown_iff hn).mp hmd, by simpa using hf, hs⟩
    next => cases hm
  · rintro ⟨hd, ⟨names, hl, hm⟩, hmd, hf, hs⟩
    have hn := h names hl name hm
    rw [if_pos hd, hl]
    refine ⟨List.mem_filter.mpr ⟨hm, ?_⟩, hs⟩
    rw [(Path.isMarkdown_iff hn).mpr hmd, hf]
    rfl

end Sight

theorem flatMap_unless {α β : Type} (drop : α → Bool) (f : α → β) (as : List α) :
    (as.flatMap fun a => if drop a then [] else [f a]) = (as.filter (!drop ·)).map f := by
  induction as with
  | nil => rfl
  | cons a as ih =>
    rw [List.flatMap_cons, ih]
    cases ha : drop a with
    | true => simp [ha]
    | false => simp [ha]

theorem Path.nodup_map_entry {names : List Text} (dir : Path) (ha : names.Nodup)
    (hn : ∀ name ∈ names, IsName name) : (names.map dir.entry).Nodup :=
  ha.map_on fun x hx y hy => entry_injective (hn x hx) (hn y hy)

namespace Workspace

variable {w : Workspace} {d : Disk} {moment : Call → Nat} {names : List Text} {task name : Text}
  {n m : Nat}

section

variable (h : w.disturbances.listAt d n w.layout.decisions = .ok names)

include h

theorem ascending_of_listAt : Ascending names :=
  Disk.ascending_of_list (Disturbances.list_of_listAt h)

theorem isName_of_listAt (hd : d.Named) : ∀ name ∈ names, Path.IsName name := fun _ hm =>
  hd.isName_of_lists ((Disk.lists_of_ok (Disturbances.list_of_listAt h)).mpr hm)

end

theorem recordNames_cases (w : Workspace) (d : Disk) (moment : Call → Nat) :
    (w.disturbances.sight d moment).recordNames w.layout = [] ∨ ∃ n names p,
      w.disturbances.listAt d n w.layout.decisions = .ok names ∧
      (w.disturbances.sight d moment).recordNames w.layout = names.filter p := by
  rw [Sight.recordNames]
  split
  next =>
    cases hl : (w.disturbances.sight d moment).list w.layout.decisions with
    | error fault => exact Or.inl rfl
    | ok names => exact Or.inr ⟨_, names, _, hl, rfl⟩
  next => exact Or.inl rfl

theorem ascending_recordNames (w : Workspace) (d : Disk) (moment : Call → Nat) :
    Ascending ((w.disturbances.sight d moment).recordNames w.layout) := by
  rcases w.recordNames_cases d moment with h | ⟨n, names, p, hl, h⟩
  · rw [h]
    exact .nil
  · rw [h]
    exact (ascending_of_listAt hl).filter p

theorem isName_of_mem_recordNames (hd : d.Named)
    (h : name ∈ (w.disturbances.sight d moment).recordNames w.layout) : Path.IsName name := by
  rcases w.recordNames_cases d moment with hnone | ⟨n, names, p, hl, hnames⟩
  · rw [hnone] at h
    cases h
  · rw [hnames] at h
    exact isName_of_listAt hl hd name (List.mem_filter.mp h).1

/-- The first two calls of the search for records: whether their directory is there, and what it
holds. -/
theorem adrPaths_apply (w : Workspace) (d : Disk) (n : Nat) : w.adrPaths ⟨d, n⟩ =
    if w.disturbances.directoryAt d n w.layout.decisions then
      match w.disturbances.listAt d (n + 1) w.layout.decisions with
      | .ok names => gather w.unlessDirectory
          ((names.filter fun name => (Path.mk name).isMarkdown).map w.layout.decisions.entry)
          ⟨d, n + 2⟩
      | .error fault =>
        if fault.kind = .notFound then (.ok [], ⟨d, n + 2⟩) else (.error fault, ⟨d, n + 2⟩)
    else (.ok [], ⟨d, n + 1⟩) := by
  refine (bind_of_ok _ _ Disturbances.isDirectory_apply _).trans ?_
  cases w.disturbances.directoryAt d n w.layout.decisions with
  | false => rfl
  | true =>
    change (tryCatch (w.disturbances.list w.layout.decisions) _ >>= _ : FileAction _) ⟨d, n + 1⟩ = _
    rw [bind_apply, tryCatch_apply, Disturbances.list_apply]
    cases w.disturbances.listAt d (n + 1) w.layout.decisions with
    | ok names => rfl
    | error fault =>
      dsimp only
      by_cases hk : fault.kind = .notFound
      · rw [if_pos hk, if_pos hk]
        rfl
      · rw [if_neg hk, if_neg hk]
        rfl

theorem unlessDirectory_apply (w : Workspace) (d : Disk) (p : Path) (n : Nat) :
    w.unlessDirectory p ⟨d, n⟩ =
      (.ok (if w.disturbances.directoryAt d n p then [] else [p]), ⟨d, n + 1⟩) :=
  bind_of_ok _ _ Disturbances.isDirectory_apply _

theorem gather_unlessDirectory {dir : Path} (ha : names.Nodup)
    (hn : ∀ name ∈ names, Path.IsName name) (n : Nat) : ∃ entries : Path → Nat,
      (∀ p, n ≤ entries p ∧ entries p ≤ n + names.length) ∧
      gather w.unlessDirectory (names.map dir.entry) ⟨d, n⟩ =
        (.ok ((names.filter fun name => !w.disturbances.directoryAt d (entries (dir.entry name))
          (dir.entry name)).map dir.entry), ⟨d, n + names.length⟩) := by
  obtain ⟨entries, hb, hg⟩ := gather_once (w.unlessDirectory_apply d)
    (dir.nodup_map_entry ha hn) n
  rw [List.length_map] at hb hg
  rw [List.flatMap_map, flatMap_unless] at hg
  exact ⟨entries, hb, hg⟩

/-- When the calls of the search for records in `dir` are made, where those for its entries are made
at moments of their own. -/
def searchMoment (dir : Path) (n : Nat) (entries : Path → Nat) (call : Call) : Nat :=
  match call.operation with
  | .list => n + 1
  | _ => if call.path = dir then n else entries call.path

theorem searchMoment_bounds {dir : Path} {entries : Path → Nat} (hm : n + 1 ≤ m)
    (he : ∀ p, n ≤ entries p ∧ entries p ≤ m) (call : Call) :
    n ≤ searchMoment dir n entries call ∧ searchMoment dir n entries call ≤ m := by
  have hp := he call.path
  unfold searchMoment
  split
  · omega
  · split <;> omega

theorem isDirectory_searchMoment (w : Workspace) (d : Disk) (n : Nat) (entries : Path → Nat) :
    (w.disturbances.sight d (searchMoment w.layout.decisions n entries)).isDirectory
      w.layout.decisions = w.disturbances.directoryAt d n w.layout.decisions := by
  simp [Disturbances.sight, searchMoment]

theorem list_searchMoment (w : Workspace) (d : Disk) (n : Nat) (entries : Path → Nat) :
    (w.disturbances.sight d (searchMoment w.layout.decisions n entries)).list w.layout.decisions =
      w.disturbances.listAt d (n + 1) w.layout.decisions := rfl

theorem recordNames_searchMoment (hd : d.Named) (entries : Path → Nat)
    (hdir : w.disturbances.directoryAt d n w.layout.decisions = true)
    (hlist : w.disturbances.listAt d (n + 1) w.layout.decisions = .ok names) :
    (w.disturbances.sight d (searchMoment w.layout.decisions n entries)).recordNames w.layout =
      (names.filter fun name => (Path.mk name).isMarkdown).filter fun name =>
        !w.disturbances.directoryAt d (entries (w.layout.decisions.entry name))
          (w.layout.decisions.entry name) := by
  rw [Sight.recordNames, isDirectory_searchMoment, list_searchMoment, hdir, hlist, if_pos rfl,
    List.filter_filter]
  refine List.filter_congr fun name hm => ?_
  have hne : w.layout.decisions.entry name ≠ w.layout.decisions :=
    Path.entry_ne_self (isName_of_listAt hlist hd name hm)
  rw [Bool.and_comm]
  simp [Disturbances.sight, searchMoment, hne]

theorem adrPaths_seen (hd : d.Named) (hl : w.ListsRecords d) (n : Nat) :
    ∃ moment m, (∀ call, n ≤ moment call ∧ moment call ≤ m) ∧ w.adrPaths ⟨d, n⟩ =
      (.ok (((w.disturbances.sight d moment).recordNames w.layout).map w.layout.decisions.entry),
        ⟨d, m⟩) := by
  have happly := w.adrPaths_apply d n
  -- The moments for the entries are known only once the directory has been listed.
  cases hdir : w.disturbances.directoryAt d n w.layout.decisions with
  | false =>
    refine ⟨searchMoment w.layout.decisions n fun _ => n, n + 1,
      searchMoment_bounds (Nat.le_refl _) fun _ => by omega, ?_⟩
    rw [happly, Sight.recordNames, isDirectory_searchMoment, hdir]
    rfl
  | true =>
    cases hlist : w.disturbances.listAt d (n + 1) w.layout.decisions with
    | error fault =>
      have hk : fault.kind = .notFound := hl (searchMoment w.layout.decisions n fun _ => n)
        ((w.isDirectory_searchMoment d n _).trans hdir) fault hlist
      refine ⟨searchMoment w.layout.decisions n fun _ => n, n + 2,
        searchMoment_bounds (by omega) fun _ => by omega, ?_⟩
      rw [happly, Sight.recordNames, isDirectory_searchMoment, list_searchMoment, hdir, hlist]
      simp only [hk]
      rfl
    | ok names =>
      have hnodup := (ascending_of_listAt hlist).nodup.filter fun name => (Path.mk name).isMarkdown
      obtain ⟨entries, hb, hg⟩ := @gather_unlessDirectory w d _ w.layout.decisions hnodup
        (fun name hm => isName_of_listAt hlist hd name (List.mem_filter.mp hm).1) (n + 2)
      refine ⟨searchMoment w.layout.decisions n entries,
        n + 2 + (names.filter fun name => (Path.mk name).isMarkdown).length,
        searchMoment_bounds (by omega) fun p => ?_, ?_⟩
      · have hp := hb p
        omega
      · rw [happly, hdir, hlist, if_pos rfl, recordNames_searchMoment hd entries hdir hlist]
        exact hg

theorem adrLink_read {dir : Path} {t : Text} (hn : Path.IsName name) (ticket : Path) :
    w.adrLink ticket (Adr.read (dir.entry name) t) =
      "[" ++ Adr.idOf name ++ "](" ++ w.layout.link ticket (dir.entry name) ++ ")" := by
  rw [adrLink, Adr.id_read hn]
  rfl

/-- What the reading of a file adds to the links. -/
theorem linkTo_apply (w : Workspace) (d : Disk) (task : Text) (ticket p : Path) (n : Nat) :
    w.linkTo task ticket p ⟨d, n⟩ = (.ok (match w.disturbances.textAt d n p with
      | .ok t => if (Adr.read p t).source = some task then [w.adrLink ticket (.read p t)] else []
      | .error _ => []), ⟨d, n + 1⟩) := by
  have hread : w.readAdr p ⟨d, n⟩ =
      ((w.disturbances.textAt d n p).map (Adr.read p), ⟨d, n + 1⟩) := by
    unfold readAdr
    rw [bind_apply, Disturbances.readText_apply]
    cases w.disturbances.textAt d n p <;> rfl
  unfold linkTo
  rw [bind_of_ok _ _ (Work.attempt_of hread)]
  cases w.disturbances.textAt d n p with
  | error fault => rfl
  | ok t =>
    dsimp only [Except.map]
    split <;> rfl

/-- The same moments, but for the readings of files, which are made at moments of their own. -/
def readMoment (search : Call → Nat) (reads : Path → Nat) (call : Call) : Nat :=
  match call.operation with
  | .readText => reads call.path
  | _ => search call

theorem readMoment_bounds {search : Call → Nat} {reads : Path → Nat} {k : Nat}
    (hs : ∀ call, n ≤ search call ∧ search call ≤ m) (hr : ∀ p, m ≤ reads p ∧ reads p ≤ m + k)
    (call : Call) :
    n ≤ readMoment search reads call ∧ readMoment search reads call ≤ m + k := by
  have hsearch := hs call
  have hread := hr call.path
  unfold readMoment
  split <;> omega

theorem gather_linkTo (ht : Path.IsName task) (ha : names.Nodup)
    (hn : ∀ name ∈ names, Path.IsName name) (search : Call → Nat) (n : Nat) :
    ∃ reads : Path → Nat, (∀ p, n ≤ reads p ∧ reads p ≤ n + names.length) ∧
      gather (w.linkTo task (w.layout.ticket d task)) (names.map w.layout.decisions.entry) ⟨d, n⟩ =
        (.ok ((names.filter (!(w.disturbances.sight d (readMoment search reads)).passesOver w.layout
          task ·)).map (w.layout.recordLink d task)), ⟨d, n + names.length⟩) := by
  obtain ⟨reads, hb, hg⟩ := gather_once (w.linkTo_apply d task (w.layout.ticket d task))
    (w.layout.decisions.nodup_map_entry ha hn) n
  rw [List.length_map] at hb hg
  refine ⟨reads, hb, hg.trans ?_⟩
  rw [List.flatMap_map, ← flatMap_unless]
  refine congrArg (fun links => (Except.ok links, _)) (List.flatMap_congr fun name hm => ?_)
  have hlink : ∀ t, w.adrLink (w.layout.ticket d task) (.read (w.layout.decisions.entry name) t) =
      w.layout.recordLink d task name := fun t => by
    rw [adrLink_read (hn name hm), Layout.link_ticket ht (hn name hm), Layout.recordLink]
    simp only [List.append_assoc]
  have hseen : (w.disturbances.sight d (readMoment search reads)).readText
      (w.layout.decisions.entry name) = w.disturbances.textAt d
        (reads (w.layout.decisions.entry name)) (w.layout.decisions.entry name) := rfl
  rw [Sight.passesOver, hseen]
  cases w.disturbances.textAt d (reads (w.layout.decisions.entry name))
      (w.layout.decisions.entry name) with
  | error fault => rfl
  | ok t =>
    by_cases hs : (Adr.read (w.layout.decisions.entry name) t).source = some task
    · simp [hs, hlink]
    · simp [hs]

/-- The links to the decision records that came from a task are those to the files that are seen to
have one, in the order of their names. Each path is looked at once, and a file that cannot be read
then has no influence on the other links. -/
theorem relatedAdrs_exact {s : Session} (ht : Path.IsName task) (hd : s.disk.Named)
    (hl : w.ListsRecords s.disk) : ∃ moment names,
      (∀ call, s.calls ≤ moment call ∧ moment call ≤ (w.relatedAdrs task s).2.calls) ∧
      Ascending names ∧
      (∀ name, name ∈ names ↔
        (w.disturbances.sight s.disk moment).RecordOf w.layout task name) ∧
      (w.relatedAdrs task s).1 = .ok (names.map (w.layout.recordLink s.disk task)) := by
  obtain ⟨d, n⟩ := s
  obtain ⟨search, m, hsearch, hpaths⟩ := adrPaths_seen hd hl n
  obtain ⟨reads, hreads, hlinks⟩ := gather_linkTo (w := w) (d := d) ht
    (w.ascending_recordNames d search).nodup (fun _ hm => isName_of_mem_recordNames hd hm) search m
  have hrun : w.relatedAdrs task ⟨d, n⟩ = (.ok _, _) :=
    (bind_of_ok _ _ (Work.onFile_of_ok hpaths "list ADR directory" task w.layout.decisions)
      _).trans hlinks
  refine ⟨readMoment search reads, _, fun call => ?_,
    (w.ascending_recordNames d search).filter _,
    fun name => Sight.mem_filter_recordNames fun names hlist => isName_of_listAt hlist hd,
    congrArg Prod.fst hrun⟩
  rw [hrun]
  exact readMoment_bounds hsearch hreads call

theorem listsRecords_of_reads
    (h : ∀ n call, call.operation ≠ .readText → w.disturbances n call = .none) :
    w.ListsRecords d := by
  intro moment hdir fault hlist
  have hd : (w.disturbances.sight d moment).isDirectory w.layout.decisions =
      d.isDirectory w.layout.decisions := by
    change w.disturbances.directoryAt d _ _ = _
    rw [Disturbances.directoryAt, h _ ⟨.isDirectory, _⟩ Operation.noConfusion]
    rfl
  have hl : (w.disturbances.sight d moment).list w.layout.decisions =
      d.list w.layout.decisions := by
    change w.disturbances.listAt d _ _ = _
    rw [Disturbances.listAt, h _ ⟨.list, _⟩ Operation.noConfusion]
    rfl
  obtain ⟨names, hnames⟩ := Disk.list_of_isDirectory (hd.symm.trans hdir)
  rw [hl, hnames] at hlist
  cases hlist

/-- The sample workspace where one of the decision records may not be read. -/
def guarded : Workspace :=
  { sample with
    disturbances := fun _ call =>
      if call = ⟨.readText, ⟨"ws/docs/decisions/0003-c.md"⟩⟩ then
        some (.failing (.ofKind .permissionDenied))
      else none }

/-- Decision records of all kinds, and a ticket that has been put away. -/
def mixedSession : Session :=
  ⟨⟨[("ws", .directory [
      ("tickets", .directory [("archive", .directory [("T-1", .directory [])])]),
      ("docs", .directory [("decisions", .directory [
        ("0001-a.md", .file (.text "- **Source:** T-1\n**Source:** T-2")),
        ("0002-b.MD", .file (.text "**Source:**\n **Source:**  T-1 ")),
        ("0003-c.md", .file (.text "**Source:** T-1")),
        ("0004-d.md", .file (.text "**Source:** T-10")),
        ("0005-e.md", .directory []),
        ("0006-f.md", .file (.binary [255])),
        ("notes.md", .file (.text "# Notes\n**Source:** T-1")),
        ("notes.txt", .file (.text "**Source:** T-1"))])])])], []⟩, 0⟩

theorem relatedAdrs_exact_mixed :
    Path.IsName "T-1" ∧ mixedSession.disk.Named ∧ guarded.ListsRecords mixedSession.disk ∧
    ∃ moment names,
      (∀ call, mixedSession.calls ≤ moment call ∧
        moment call ≤ (guarded.relatedAdrs "T-1" mixedSession).2.calls) ∧
      Ascending names ∧
      (∀ name, name ∈ names ↔
        (guarded.disturbances.sight mixedSession.disk moment).RecordOf guarded.layout "T-1" name) ∧
      (guarded.relatedAdrs "T-1" mixedSession).1 =
        .ok (names.map (guarded.layout.recordLink mixedSession.disk "T-1")) := by
  have hd : mixedSession.disk.Named := Disk.named_of_places (by decide +kernel)
  have hl : guarded.ListsRecords mixedSession.disk := listsRecords_of_reads fun _ call hc => by
    refine if_neg ?_
    rintro rfl
    exact hc rfl
  exact ⟨by decide, hd, hl, relatedAdrs_exact (by decide) hd hl⟩

example : (guarded.relatedAdrs "T-1" mixedSession).1 = .ok
    ["[ADR-0001](../../../docs/decisions/0001-a.md)",
      "[ADR-0002](../../../docs/decisions/0002-b.MD)",
      "[notes](../../../docs/decisions/notes.md)"] := by decide +kernel

end Workspace

end DesignRecords
