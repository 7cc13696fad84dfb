import DesignRecords.Proofs.Conflict.Absence
import DesignRecords.Proofs.Disk.Removal
import DesignRecords.Proofs.Workspace.Matching

namespace DesignRecords

variable {d d' : Disk} {w : Workspace} {ds : Disturbances} {paths : List Path} {p dir : Path}
  {task : Text} {r : Request}

namespace Disk

theorem Page.within (hd : d.Named) (h : d.Page dir p) :
    ∃ names, names ≠ [] ∧ (∀ n ∈ names, Path.IsName n) ∧ p = dir.within names := by
  induction h with
  | @here dir name listed visible file markdown =>
    exact ⟨[name], by simp, by simpa using hd.isName_of_lists listed, rfl⟩
  | @deeper dir p name listed visible page ih =>
    obtain ⟨names, -, hn, rfl⟩ := ih
    refine ⟨name :: names, by simp, fun n hm => ?_, rfl⟩
    rcases List.mem_cons.mp hm with rfl | hm
    · exact hd.isName_of_lists listed
    · exact hn n hm

end Disk

namespace Layout

variable {l : Layout}

/-- Whether a path is that of a document of the corpora: of a decision record, of the design
document in a ticket, or of a page of the wiki. A ticket that was put away counts also where it is
hidden by one of the same name that is worked on. -/
inductive IsDocument (l : Layout) (d : Disk) : Path → Prop
  | adr {p : Path} (file : l.AdrFile d p) : IsDocument l d p
  | active {task : Text} (name : Path.IsName task) :
    IsDocument l d ((l.tickets.entry task).entry "design.md")
  | archived {task : Text} (name : Path.IsName task) :
    IsDocument l d ((l.archive.entry task).entry "design.md")
  | page {p : Path} (page : l.WikiPage d p) : IsDocument l d p

/-- The document that is read of a task is one of those in tickets. -/
theorem isDocument_design (h : Path.IsName task) : l.IsDocument d (l.design d task) := by
  rcases l.ticket_cases d task with ht | ht <;> rw [Layout.design, ht]
  · exact .active h
  · exact .archived h

/-- Documents lie three levels or more below the root. -/
theorem IsDocument.within (hd : d.Named) (h : l.IsDocument d p) :
    ∃ names, 3 ≤ names.length ∧ (∀ n ∈ names, Path.IsName n) ∧ p = l.root.within names := by
  cases h with
  | adr file =>
    obtain ⟨name, hl, -, rfl, -⟩ := file
    refine ⟨["docs", "decisions", name], by simp, ?_, rfl⟩
    simpa using ⟨isName_docs, isName_decisions, hd.isName_of_lists hl⟩
  | @active task name =>
    refine ⟨["tickets", task, "design.md"], by simp, ?_, rfl⟩
    simpa using ⟨isName_tickets, name, isName_design⟩
  | @archived task name =>
    refine ⟨["tickets", archiveName, task, "design.md"], by simp, ?_, rfl⟩
    simpa using ⟨isName_tickets, isName_archive, name, isName_design⟩
  | page page =>
    obtain ⟨names, hne, hn, rfl⟩ := page.within hd
    refine ⟨"docs" :: "wiki" :: names, ?_, ?_, rfl⟩
    · have hpos := List.length_pos_iff.mpr hne
      simp only [List.length_cons]
      omega
    · simpa using ⟨isName_docs, isName_wiki, hn⟩

end Layout

theorem Work.unlessUnusable_of_passed {α : Type} {action : FileAction α} {operation : Text}
    {fault : Fault} {s s' : Session} (h : action s = (.error fault, s')) (hp : fault.Passed) :
    unlessUnusable operation task p action s = (.ok none, s') := by
  have hk : (decide (fault.kind = .notFound) || decide (fault.kind = .invalidData)) = true := by
    simpa [Fault.Passed] using hp
  unfold unlessUnusable
  rw [bind_of_ok _ _ (attempt_of h)]
  simp only [hk, if_true]
  rfl

namespace Workspace

/-- A task whose document cannot be used has no decisions. -/
theorem taskCandidates_of_passed {fault : Fault} {s s' : Session}
    (h : w.disturbances.readText (w.layout.design s.disk task) s = (.error fault, s'))
    (hp : fault.Passed) : w.taskCandidates task s = (.ok [], s') := by
  have hdoc := document_of_error h
  unfold taskCandidates
  rw [tryCatch_apply, map_eq_pure_bind, bind_of_error _ _ hdoc]
  have hpass : ∀ failure : Failure, (failure.isNotFound || failure.isInvalidData) = true →
      (if failure.isNotFound || failure.isInvalidData then pure [] else throw failure :
        Work (List Candidate)) s' = (.ok [], s') := by
    intro failure hf
    rw [if_pos hf]
    rfl
  refine hpass _ ?_
  by_cases hk : fault.kind = .notFound
  · rw [if_pos hk]
    rfl
  · have hi : fault.kind = .invalidData := hp.resolve_left hk
    rw [if_neg hk]
    simp [Failure.isNotFound, Failure.isInvalidData, hi]

/-- Whether `ds` disturbs the work in a workspace as it is disturbed anyway, at all times in the
same way, and some documents cannot be read in addition: they are missing each time, or no text. -/
structure Spoiled (w : Workspace) (ds : Disturbances) (d : Disk) (paths : List Path) : Prop where
  documents : ∀ p ∈ paths, w.layout.IsDocument d p
  steady : ∀ n call, w.disturbances n call = w.disturbances 0 call
  quiet : ∀ call, call.path ∈ paths → w.disturbances 0 call = none
  same : ∀ n call, (call.path ∈ paths → call.operation ≠ .readText) →
    ds n call = w.disturbances n call
  unusable : ∀ p ∈ paths, ∀ n, ∃ fault s, ds.readText p ⟨d, n⟩ = (.error fault, s) ∧ fault.Passed

/-- Whether the second of two lists of names in a directory has those of the first that do not lead
to one of some paths. -/
structure SparingNames (d d' : Disk) (paths : List Path) (dir : Path) (names names' : List Text) :
    Prop where
  filter : names' = names.filter fun n => dir.entry n ∉ paths
  lists : ∀ n ∈ names, d.Lists dir n
  lists' : ∀ n ∈ names', d'.Lists dir n

theorem sparingNames_nil (d d' : Disk) (paths : List Path) (dir : Path) :
    SparingNames d d' paths dir [] [] :=
  ⟨rfl, fun _ h => (by cases h), fun _ h => (by cases h)⟩

namespace Spoiled

variable (h : w.Spoiled ds d paths)

include h

theorem within (hd : d.Named) : w.layout.root.Within paths := by
  intro p hp
  obtain ⟨names, hlen, hn, rfl⟩ := (h.documents p hp).within hd
  exact ⟨names, List.ne_nil_of_length_pos (by omega), hn, rfl⟩

/-- The directories that hold all documents are none of them. -/
theorem spared_of_short (hd : d.Named) (names : List Text) (hne : names ≠ [])
    (hlen : names.length < 3) (hn : ∀ n ∈ names, Path.IsName n) :
    w.layout.root.Spared paths (w.layout.root.within names) := by
  refine ⟨names, hne, hn, fun front hf hp => ?_, rfl⟩
  obtain ⟨names', hlen', hn', he⟩ := (h.documents _ hp).within hd
  have hfront := Path.within_injective (fun n hm => hn n (hf.subset hm)) hn' he
  have hle := hf.length_le
  rw [hfront] at hle
  omega

theorem spared_tickets (hd : d.Named) : w.layout.root.Spared paths w.layout.tickets :=
  h.spared_of_short hd ["tickets"] (by simp) (by simp)
    (by simpa using Layout.isName_tickets)

theorem spared_archive (hd : d.Named) : w.layout.root.Spared paths w.layout.archive :=
  h.spared_of_short hd ["tickets", Layout.archiveName] (by simp) (by simp)
    (by simpa using ⟨Layout.isName_tickets, Layout.isName_archive⟩)

theorem spared_decisions (hd : d.Named) : w.layout.root.Spared paths w.layout.decisions :=
  h.spared_of_short hd ["docs", "decisions"] (by simp) (by simp)
    (by simpa using ⟨Layout.isName_docs, Layout.isName_decisions⟩)

theorem spared_wiki (hd : d.Named) : w.layout.root.Spared paths w.layout.wiki :=
  h.spared_of_short hd ["docs", "wiki"] (by simp) (by simp)
    (by simpa using ⟨Layout.isName_docs, Layout.isName_wiki⟩)

theorem sameCall {call : Call} (hc : call.path ∈ paths → call.operation ≠ .readText) :
    ds.Same w.disturbances call :=
  ⟨w.disturbances 0 call, fun n => (h.same n call hc).trans (h.steady n call),
    fun n => h.steady n call⟩

theorem answers_not_directory (hl : d.Lacks d' paths) (hp : p ∈ paths) :
    Answers (liftM (ds.isDirectory p) : FileAction Bool) d (.ok false) := by
  have ho : ∀ n, ds n ⟨.isDirectory, p⟩ = none := fun n =>
    (h.same n _ fun _ => by simp).trans ((h.steady n _).trans (h.quiet _ hp))
  have ha : Answers (liftM (ds.isDirectory p) : FileAction Bool) d (.ok (d.isDirectory p)) :=
    answers_ask ho
  rwa [hl.not_isDirectory hp] at ha

theorem matches_isDirectory (hl : d.Lacks d' paths) (p : Path) :
    Matches (· = ·) (liftM (ds.isDirectory p) : FileAction Bool) d
      (liftM (w.disturbances.isDirectory p) : FileAction Bool) d' :=
  DesignRecords.matches_isDirectory (h.sameCall fun _ => by simp) (hl.isDirectory p)

theorem readText_missing (hl : d.Lacks d' paths) {n : Nat} (hp : p ∈ paths) :
    w.disturbances.readText p ⟨d', n⟩ = (.error .missing, ⟨d', n + 1⟩) := by
  have ho : w.disturbances n ⟨.readText, p⟩ = none := (h.steady n _).trans (h.quiet _ hp)
  unfold Disturbances.readText Disturbances.perform
  rw [ho]
  simp only [hl.readText_missing hp]

theorem matches_readText (hd : d.Named) (hl : d.Lacks d' paths)
    (hp : w.layout.root.Spared paths p) :
    Matches (· = ·) (ds.readText p) d (w.disturbances.readText p) d' :=
  DesignRecords.matches_readText (h.sameCall fun hm => absurd hm hp.not_mem)
    (hl.readText (h.within hd) hp)

theorem matches_list (hd : d.Named) (hl : d.Lacks d' paths) (hp : w.layout.root.Spared paths p) :
    Matches (SparingNames d d' paths p) (ds.list p) d (w.disturbances.list p) d' := by
  refine matches_perform (h.sameCall fun _ => by simp) rfl rfl ?_
  rcases hl.list hd (h.within hd) hp with ⟨fault, he, he'⟩ | ⟨names, he, he'⟩
  · simp only [he, he']
    exact .error fault
  · simp only [he, he']
    exact .ok ⟨rfl, fun n => (Disk.lists_of_ok he).mpr, fun n => (Disk.lists_of_ok he').mpr⟩

end Spoiled

/-- Whether the second of two lists of paths has those of the first that are not to be left out, all
of which can be reached without them. -/
def Sparing (w : Workspace) (paths xs ys : List Path) : Prop :=
  ys = xs.filter (· ∉ paths) ∧ ∀ p ∈ xs, p ∉ paths → w.layout.root.Spared paths p

theorem Sparing.append {xs ys xs' ys' : List Path} (h : w.Sparing paths xs ys)
    (h' : w.Sparing paths xs' ys') : w.Sparing paths (xs ++ xs') (ys ++ ys') := by
  refine ⟨by rw [h.1, h'.1, List.filter_append], fun p hp => ?_⟩
  rcases List.mem_append.mp hp with hp | hp
  · exact h.2 p hp
  · exact h'.2 p hp

theorem sparing_nil (w : Workspace) (paths : List Path) : w.Sparing paths [] [] :=
  ⟨rfl, fun _ h => by cases h⟩

theorem sparing_singleton (h : w.layout.root.Spared paths p) : w.Sparing paths [p] [p] := by
  refine ⟨by simp [h.not_mem], fun q hq _ => ?_⟩
  rwa [List.mem_singleton.mp hq]

/-- A path that is left out. -/
theorem sparing_of_mem (h : p ∈ paths) : w.Sparing paths [p] [] := by
  refine ⟨by simp [h], fun q hq hn => ?_⟩
  rw [List.mem_singleton.mp hq] at hn
  exact absurd h hn

namespace Spoiled

variable (h : w.Spoiled ds d paths) (hd : d.Named) (hl : d.Lacks d' paths)

include h hd hl

/-- The walk through the wiki comes to the pages that it comes to where the documents are gone, and
to those among them. How deep it may go does not matter where that is deeper than directories
are. -/
theorem matches_pages {depth depth' : Nat} (hdir : w.layout.root.Spared paths dir)
    (hpos : 0 < depth) (hpos' : 0 < depth') (deep : d.Shallow dir depth)
    (deep' : d'.Shallow dir depth') :
    Matches (w.Sparing paths) ({ w with disturbances := ds }.pages depth dir) d
      (w.pages depth' dir) d' := by
  induction depth generalizing dir depth' with
  | zero => exact absurd hpos (Nat.lt_irrefl 0)
  | succ depth ih =>
    obtain ⟨depth', rfl⟩ := Nat.exists_eq_succ_of_ne_zero (Nat.ne_of_gt hpos')
    rw [pages_succ, pages_succ]
    refine (h.matches_isDirectory hl dir).bind ?_
    rintro there _ rfl
    cases there with
    | false => exact matches_pure (sparing_nil w paths)
    | true =>
      refine (h.matches_list hd hl hdir).bind ?_
      rintro names _ ⟨rfl, hlists, hlists'⟩
      rw [List.filter_comm]
      refine matches_gather_filter _ _ (sparing_nil w paths) (fun _ _ _ _ => Sparing.append) ?_ ?_
      · intro name hname hkeep
        have hlisted := hlists name (List.mem_filter.mp hname).1
        have hlisted' := hlists' name
          (List.mem_filter.mpr ⟨(List.mem_filter.mp hname).1, hkeep⟩)
        have hentry := hdir.entry (hd.isName_of_lists hlisted) (by simpa using hkeep)
        refine (h.matches_isDirectory hl (dir.entry name)).bind ?_
        rintro there _ rfl
        cases there with
        | false =>
          refine matches_pure ?_
          split
          · exact sparing_singleton hentry
          · exact sparing_nil w paths
        | true =>
          exact ih hentry (deep.pos_of_lists hlisted) (deep'.pos_of_lists hlisted')
            (hd.shallow_entry deep hlisted) ((hl.named hd).shallow_entry deep' hlisted')
      · intro name hname hdrop
        have hmem : dir.entry name ∈ paths := by simpa using hdrop
        refine ⟨_, (h.answers_not_directory hl hmem).bind (answers_pure _ d), ?_⟩
        cases (dir.entry name).isMarkdown with
        | true => exact sparing_of_mem hmem
        | false => exact sparing_nil w paths

theorem matches_wikiPages :
    Matches (w.Sparing paths) ({ w with disturbances := ds }.wikiPages) d w.wikiPages d' := by
  refine Matches.of_get (fun d => { w with disturbances := ds }.pages (d.depth + 2) w.layout.wiki)
    (fun d => w.pages (d.depth + 2) w.layout.wiki) ?_
  exact h.matches_pages hd hl (h.spared_wiki hd) (by omega) (by omega)
    (Disk.shallow_of_depth_lt (by omega) _) (Disk.shallow_of_depth_lt (by omega) _)

omit hd hl in
theorem exists_unusable (hp : p ∈ paths) (n : Nat) : ∃ fault k,
    ds.readText p ⟨d, n⟩ = (.error fault, ⟨d, k⟩) ∧ fault.Passed := by
  obtain ⟨fault, ⟨disk, k⟩, hr, hf⟩ := h.unusable p hp n
  have hk := ds.keeps_readText p ⟨d, n⟩
  rw [hr] at hk
  cases hk
  exact ⟨fault, k, hr, hf⟩

omit hd hl in
/-- A document that cannot be used is passed over. -/
theorem answers_unlessUnusable {α : Type} (operation task : Text) (f : Text → α)
    (hp : p ∈ paths) :
    Answers (Work.unlessUnusable operation task p (ds.readText p >>= fun t => pure (f t))) d
      (.ok none) := by
  intro n
  obtain ⟨fault, k, hr, hf⟩ := h.exists_unusable hp n
  exact ⟨k, Work.unlessUnusable_of_passed (bind_of_error _ _ hr _) hf⟩

omit hd hl in
theorem answers_pageCandidates (hp : p ∈ paths) :
    Answers ({ w with disturbances := ds }.pageCandidates task p) d (.ok []) := by
  have ha := h.answers_unlessUnusable "read wiki page" task (fun t => t) hp
  rw [bind_pure] at ha
  exact ha.bind (answers_pure [] d)

theorem matches_wikiCandidates :
    Matches (· = ·) ({ w with disturbances := ds }.wikiCandidates r) d (w.wikiCandidates r) d' := by
  refine (Work.matches_onFile (h.matches_wikiPages hd hl)).bind ?_
  rintro pages _ ⟨rfl, hs⟩
  refine matches_gather_filter _ pages rfl (fun _ _ _ _ h h' => by rw [h, h']) ?_ ?_
  · intro p hp hkeep
    have hread := h.matches_readText hd hl (hs p hp (by simpa using hkeep))
    refine (Work.matches_unlessUnusable hread).bind ?_
    rintro t _ rfl
    cases t <;> exact matches_pure rfl
  · intro p hp hdrop
    exact ⟨[], h.answers_pageCandidates (by simpa using hdrop), rfl⟩

theorem matches_adrPaths :
    Matches (w.Sparing paths) ({ w with disturbances := ds }.adrPaths) d w.adrPaths d' := by
  have hdir := h.spared_decisions hd
  refine (h.matches_isDirectory hl w.layout.decisions).bind ?_
  rintro there _ rfl
  cases there with
  | false => exact matches_pure (sparing_nil w paths)
  | true =>
    refine ((h.matches_list hd hl hdir).tryCatch fun fault => ?_).bind ?_
    · split
      · exact matches_pure (sparingNames_nil d d' paths _)
      · exact matches_throw fault
    rintro names _ ⟨rfl, hlists, -⟩
    have hfilter : ((names.filter fun n => w.layout.decisions.entry n ∉ paths).filter
          fun n => (Path.mk n).isMarkdown).map w.layout.decisions.entry =
        ((names.filter fun n => (Path.mk n).isMarkdown).map w.layout.decisions.entry).filter
          (· ∉ paths) := by
      rw [List.filter_comm, List.filter_map]
      rfl
    rw [hfilter]
    refine matches_gather_filter _ _ (sparing_nil w paths) (fun _ _ _ _ => Sparing.append) ?_ ?_
    · intro p hp hkeep
      obtain ⟨name, hname, rfl⟩ := List.mem_map.mp hp
      have hlisted := hlists name (List.mem_filter.mp hname).1
      have hentry := hdir.entry (hd.isName_of_lists hlisted) (by simpa using hkeep)
      refine (h.matches_isDirectory hl _).bind ?_
      rintro there _ rfl
      cases there with
      | false => exact matches_pure (sparing_singleton hentry)
      | true => exact matches_pure (sparing_nil w paths)
    · intro p hp hdrop
      have hmem : p ∈ paths := by simpa using hdrop
      exact ⟨[p], (h.answers_not_directory hl hmem).bind (answers_pure _ d), sparing_of_mem hmem⟩

theorem matches_adrCandidates :
    Matches (· = ·) ({ w with disturbances := ds }.adrCandidates r) d (w.adrCandidates r) d' := by
  refine (Work.matches_onFile (h.matches_adrPaths hd hl)).bind ?_
  rintro files _ ⟨rfl, hs⟩
  refine matches_gather_filter _ files rfl (fun _ _ _ _ h h' => by rw [h, h']) ?_ ?_
  · intro p hp hkeep
    have hread := h.matches_readText hd hl (hs p hp (by simpa using hkeep))
    have hadr : Matches (· = ·) ({ w with disturbances := ds }.readAdr p) d (w.readAdr p) d' :=
      hread.bind fun t t' ht => matches_pure (congrArg (Adr.read p) ht)
    refine (Work.matches_unlessUnusable hadr).bind ?_
    rintro adr _ rfl
    cases adr with
    | none => exact matches_pure rfl
    | some adr =>
      simp only
      split <;> exact matches_pure rfl
  · intro p hp hdrop
    refine ⟨[], ?_, rfl⟩
    exact (h.answers_unlessUnusable "read ADR" r.task (Adr.read p)
      (by simpa using hdrop)).bind (answers_pure [] d)

theorem spared_ticket (ht : w.layout.HasTicket d task) :
    w.layout.root.Spared paths (w.layout.ticket d task) := by
  have hname : Path.IsName task := by
    rcases ht with ⟨⟨hlists, -⟩, -⟩ | ⟨hlists, -⟩ <;> exact hd.isName_of_lists hlists
  have hactive := h.spared_of_short hd ["tickets", task] (by simp) (by simp)
    (by simpa using ⟨Layout.isName_tickets, hname⟩)
  unfold Layout.ticket
  simp only
  split
  · exact hactive
  · split
    next hdir =>
      refine (h.spared_archive hd).entry hname fun hp => ?_
      rw [hl.not_isDirectory hp] at hdir
      cases hdir
    · exact hactive

theorem visibleDirectories_eq (hdir : w.layout.root.Spared paths dir) :
    Layout.visibleDirectories d' dir = Layout.visibleDirectories d dir := by
  unfold Layout.visibleDirectories
  rcases hl.list hd (h.within hd) hdir with ⟨fault, he, he'⟩ | ⟨names, he, he'⟩
  · rw [he, he']
  · simp only [he, he', List.filter_filter, hl.isDirectory]
    refine congrArg Except.ok (List.filter_congr fun name _ => ?_)
    by_cases hp : dir.entry name ∈ paths
    · simp [hl.not_isDirectory hp]
    · simp [hp]

/-- The same tasks have tickets. -/
theorem tasks_eq : w.layout.tasks d' = w.layout.tasks d := by
  rw [Layout.tasks, Layout.tasks, h.visibleDirectories_eq hd hl (h.spared_tickets hd),
    h.visibleDirectories_eq hd hl (h.spared_archive hd)]

theorem matches_document (hp : w.layout.root.Spared paths (w.layout.design d task)) :
    Matches (· = ·) ({ w with disturbances := ds }.document task) d (w.document task) d' := by
  have hdesign : Matches (fun p p' => p = w.layout.design d task ∧ p' = p)
      (liftM ({ w with disturbances := ds }.design task) : Work Path) d
      (liftM (w.design task) : Work Path) d' :=
    ⟨_, _, fun n => ⟨n, rfl⟩, fun n => ⟨n, rfl⟩,
      .ok ⟨rfl, Layout.design_congr fun p => hl.isDirectory p⟩⟩
  refine hdesign.bind ?_
  rintro p _ ⟨rfl, rfl⟩
  refine (Work.matches_attempt (h.matches_readText hd hl hp)).bind fun t t' ht => ?_
  rw [ht.eq]
  cases t' with
  | ok t => exact matches_pure rfl
  | error fault =>
    simp only
    split
    · exact matches_throw _
    · exact matches_throw _

theorem matches_taskCandidates (ht : w.layout.HasTicket d task) :
    Matches (· = ·) ({ w with disturbances := ds }.taskCandidates task) d (w.taskCandidates task)
      d' := by
  have hdesign : w.layout.design d' task = w.layout.design d task :=
    Layout.design_congr fun p => hl.isDirectory p
  by_cases hp : w.layout.design d task ∈ paths
  · refine ⟨.ok [], .ok [], fun n => ?_, fun n => ?_, .ok rfl⟩
    · obtain ⟨fault, k, hr, hf⟩ := h.exists_unusable hp n
      exact ⟨k, taskCandidates_of_passed hr hf⟩
    · exact ⟨n + 1, taskCandidates_of_passed (h.readText_missing hl (n := n) (by rwa [hdesign]))
        (Or.inl rfl)⟩
  · have hsp := (h.spared_ticket hd hl ht).entry Layout.isName_design hp
    refine Matches.tryCatch ?_ fun failure => ?_
    · rw [map_eq_pure_bind, map_eq_pure_bind]
      exact (h.matches_document hd hl hsp).bind fun doc doc' he => matches_pure (by rw [he])
    · split
      · exact matches_pure rfl
      · exact matches_throw failure

theorem matches_decisionCandidates :
    Matches (· = ·) ({ w with disturbances := ds }.decisionCandidates r) d (w.decisionCandidates r)
      d' := by
  refine Matches.of_get (fun disk => Work.ofExcept ((w.layout.tasks disk).mapError
      (.file "list tickets" r.task w.layout.tickets)) >>= fun tasks =>
        gather { w with disturbances := ds }.taskCandidates (tasks.filter (· ≠ r.task)))
    (fun disk => Work.ofExcept ((w.layout.tasks disk).mapError
      (.file "list tickets" r.task w.layout.tickets)) >>= fun tasks =>
        gather w.taskCandidates (tasks.filter (· ≠ r.task))) ?_
  have htasks : Matches
      (fun tasks tasks' => tasks' = tasks ∧ ∀ task ∈ tasks, w.layout.HasTicket d task)
      (Work.ofExcept ((w.layout.tasks d).mapError (.file "list tickets" r.task w.layout.tickets))) d
      (Work.ofExcept ((w.layout.tasks d').mapError
        (.file "list tickets" r.task w.layout.tickets))) d' := by
    rw [h.tasks_eq hd hl]
    refine ⟨_, _, fun n => ⟨n, rfl⟩, fun n => ⟨n, rfl⟩, ?_⟩
    rcases w.layout.tasks_cases d with ⟨-, tasks, ht, hm⟩ | ⟨-, fault, hf⟩
    · rw [ht]
      exact .ok ⟨rfl, fun task => (hm task).mp⟩
    · rw [hf]
      exact .error _
  refine htasks.bind ?_
  rintro tasks _ ⟨rfl, ht⟩
  refine matches_gather _ rfl (fun _ _ _ _ h h' => by rw [h, h']) fun task hm => ?_
  exact h.matches_taskCandidates hd hl (ht task (List.mem_filter.mp hm).1)

end Spoiled

/-- All of the corpora have the same candidates where the documents are gone. -/
theorem Spoiled.matches_sources (h : w.Spoiled ds d paths) (hd : d.Named) (hl : d.Lacks d' paths) :
    Matches (· = ·)
      (gather (fun source => source.candidates { w with disturbances := ds } r) Source.all) d
      (gather (fun source => source.candidates w r) Source.all) d' := by
  refine matches_gather _ rfl (fun _ _ _ _ h h' => by rw [h, h']) fun source hsource => ?_
  rcases List.mem_cons.mp hsource with rfl | hsource
  · exact h.matches_adrCandidates hd hl
  rcases List.mem_cons.mp hsource with rfl | hsource
  · exact h.matches_decisionCandidates hd hl
  · rw [List.mem_singleton.mp hsource]
    exact h.matches_wikiCandidates hd hl

/-- Documents that cannot be used are the same as none: a check comes to what it comes to where they
are gone, be it a list of conflicts or a failure that something else is the cause of. -/
theorem conflicts_spoiled {n n' : Nat} (h : w.Spoiled ds d paths) (hd : d.Named)
    (hr : paths.foldlM Disk.removeFile d = .ok d') :
    ({ w with disturbances := ds }.conflicts r ⟨d, n⟩).1 = (w.conflicts r ⟨d', n'⟩).1 := by
  have hl := Disk.lacks_of_removeFile hr
  by_cases hp : w.thresholds.proposal r = []
  · rw [conflicts_of_no_proposal hp,
      conflicts_of_no_proposal (w := { w with disturbances := ds }) hp]
    rfl
  · rw [conflicts_of_proposal hp, conflicts_of_proposal (w := { w with disturbances := ds }) hp]
    have hsources := (h.matches_sources (r := r) hd hl).bind
      (f := fun cs => pure (w.thresholds.conflicts (w.thresholds.proposal r) cs))
      (g := fun cs => pure (w.thresholds.conflicts (w.thresholds.proposal r) cs))
      fun cs cs' he => matches_pure (congrArg _ he)
    exact hsources.result n n'

/-- The disk of `corpusSession` with a ticket put away that one of the same name hides. -/
def doubledDisk : Disk :=
  corpusSession.disk.put ["ws", "tickets", "archive", "T-1"]
    (.directory [("design.md", .file (.binary [0xE9]))])

/-- A document of each kind. -/
def spoiledPaths : List Path :=
  [sample.layout.decisions.entry "0002-queue.md", sample.layout.design doubledDisk "T-1",
    (sample.layout.archive.entry "T-1").entry "design.md",
    (sample.layout.wiki.entry "team").entry "rules.md"]

/-- These are missing at every other call, and no text in between. -/
def spoiling : Disturbances := fun n call =>
  if call.operation = .readText ∧ call.path ∈ spoiledPaths
  then some (.failing (if n % 2 = 0 then .missing else .notText))
  else none

theorem spoiled_doubled : sample.Spoiled spoiling doubledDisk spoiledPaths where
  documents := by
    have hadr : sample.layout.AdrFile doubledDisk
        (sample.layout.decisions.entry "0002-queue.md") :=
      ⟨_, ⟨_, rfl, by decide⟩, by decide, rfl, by decide⟩
    have hpage : sample.layout.WikiPage doubledDisk
        ((sample.layout.wiki.entry "team").entry "rules.md") :=
      .deeper ⟨_, rfl, by decide⟩ (by decide)
        (.here ⟨_, rfl, by decide⟩ (by decide) (by decide) (by decide))
    simp only [spoiledPaths, List.forall_mem_cons, List.not_mem_nil, false_imp_iff, implies_true,
      and_true]
    have hname : Path.IsName "T-1" := ⟨by decide, by decide, by decide⟩
    exact ⟨.adr hadr, Layout.isDocument_design hname, .archived hname, .page hpage⟩
  steady _ _ := rfl
  quiet _ _ := rfl
  same n call hc := if_neg fun ⟨ho, hp⟩ => hc hp ho
  unusable p hp n := by
    have hf : spoiling n ⟨.readText, p⟩ =
        some (.failing (if n % 2 = 0 then .missing else .notText)) := if_pos ⟨rfl, hp⟩
    refine ⟨if n % 2 = 0 then .missing else .notText, ⟨doubledDisk, n + 1⟩, ?_, ?_⟩
    · unfold Disturbances.readText Disturbances.perform
      rw [hf]
    · split
      · exact Or.inl rfl
      · exact Or.inr rfl

theorem conflicts_spoiled_corpus : ∃ d', sample.Spoiled spoiling doubledDisk spoiledPaths ∧
    doubledDisk.Named ∧ spoiledPaths.foldlM Disk.removeFile doubledDisk = .ok d' ∧
    ({ sample with disturbances := spoiling }.conflicts corpusRequest ⟨doubledDisk, 0⟩).1 =
      (sample.conflicts corpusRequest ⟨d', 0⟩).1 := by
  have hd : doubledDisk.Named := Disk.named_of_places (by decide +kernel)
  exact ⟨_, spoiled_doubled, hd, rfl, conflicts_spoiled spoiled_doubled hd rfl⟩

end Workspace

end DesignRecords
