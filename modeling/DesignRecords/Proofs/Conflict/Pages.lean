import DesignRecords.Proofs.Adr.Metadata
import DesignRecords.Proofs.Conflict.Absence
import DesignRecords.Proofs.Workspace.Sight

namespace DesignRecords

namespace Path

variable {p q dir : Path} {m n : Text}

/-- The kinds of parts in their order. -/
def Part.rank : Part → Nat
  | root => 0
  | here => 1
  | up => 2
  | name _ => 3

/-- Parts are ordered by their kinds, and names by their characters. -/
instance : Ord Part := ⟨fun a b => (compare a.rank b.rank).then (compare a.text b.text)⟩

instance : Std.ReflOrd Part where
  compare_self := by
    intro a
    change (compare a.rank a.rank).then (compare a.text a.text) = .eq
    rw [Std.compare_self, Std.compare_self]
    rfl

/-- Whether a path comes before another one when they are compared part by part. -/
def Before (p q : Path) : Prop := compare p.parts q.parts = .lt

theorem Before.ne (h : Before p q) : p ≠ q := by
  rintro rfl
  rw [Before, Std.compare_self] at h
  cases h

theorem compare_append (front as bs : List Part) :
    compare (front ++ as) (front ++ bs) = compare as bs := by
  induction front with
  | nil => rfl
  | cons a front ih =>
    rw [List.compare_eq_compareLex] at ih ⊢
    rw [List.cons_append, List.cons_append, List.compareLex_cons_cons, Std.compare_self, ih]
    rfl

theorem compare_name (m n : Text) : compare (Part.name m) (Part.name n) = compare m n := rfl

/-- What is below an entry of a directory comes before what is below a later one. -/
theorem before_of_entries (hm : IsName m) (hn : IsName n) (h : compare m n = .lt)
    (hp : (dir.entry m).parts <+: p.parts) (hq : (dir.entry n).parts <+: q.parts) :
    Before p q := by
  obtain ⟨as, has⟩ := hp
  obtain ⟨bs, hbs⟩ := hq
  rw [Before, ← has, ← hbs, parts_entry hm, parts_entry hn, List.append_assoc, List.append_assoc,
    compare_append, List.compare_eq_compareLex, List.singleton_append, List.singleton_append,
    List.compareLex_cons_cons, compare_name, h]
  rfl

end Path

/-- Whether work on a disk that has a result leaves the disk as it is, and the result is one that
`P` holds of. -/
def Brings {α : Type} (d : Disk) (x : FileAction α) (P : α → Prop) : Prop :=
  ∀ n a s', x ⟨d, n⟩ = (.ok a, s') → s'.disk = d ∧ P a

namespace Workspace

variable {w : Workspace} {d : Disk} {dir : Path} {names : List Text}

/-- Whether paths lead to a directory or below it, each before those that follow it. -/
structure InOrder (dir : Path) (ps : List Path) : Prop where
  below : ∀ p ∈ ps, dir.parts <+: p.parts
  before : ps.Pairwise Path.Before

theorem inOrder_nil (dir : Path) : InOrder dir [] := ⟨by simp, .nil⟩

theorem inOrder_singleton (p : Path) : InOrder p [p] := ⟨by simp, List.pairwise_singleton _ _⟩

/-- What is gathered for entries in the order of their names is in the order of paths. -/
theorem brings_gather {work : Text → FileAction (List Path)} (ha : Ascending names)
    (hn : ∀ name ∈ names, Path.IsName name)
    (h : ∀ name ∈ names, Brings d (work name) (InOrder (dir.entry name))) :
    Brings d (gather work names) fun ps => ps.Pairwise Path.Before ∧
      ∀ p ∈ ps, ∃ name ∈ names, (dir.entry name).parts <+: p.parts := by
  induction names with
  | nil =>
    intro n ps s' hg
    cases hg
    exact ⟨rfl, .nil, by simp⟩
  | cons name names ih =>
    obtain ⟨hfirst, ha⟩ := List.pairwise_cons.mp ha
    obtain ⟨hname, hn⟩ := List.forall_mem_cons.mp hn
    obtain ⟨hwork, h⟩ := List.forall_mem_cons.mp h
    intro n ps s' hg
    obtain ⟨first, ⟨d₁, n₁⟩, rest, hx, hr, rfl⟩ := gather_cons_eq_ok.mp hg
    obtain ⟨rfl, hfirsts⟩ := hwork n first _ hx
    obtain ⟨hs', hrest, hbelow⟩ := ih ha hn h n₁ rest s' hr
    refine ⟨hs', List.pairwise_append.mpr ⟨hfirsts.before, hrest, fun p hp q hq => ?_⟩, ?_⟩
    -- The two pages come from two entries, whose names decide on their order.
    · obtain ⟨later, hlater, hq⟩ := hbelow q hq
      exact Path.before_of_entries hname (hn later hlater) (hfirst later hlater)
        (hfirsts.below p hp) hq
    · intro p hp
      rcases List.mem_append.mp hp with hp | hp
      · exact ⟨name, by simp, hfirsts.below p hp⟩
      · obtain ⟨later, hlater, hp⟩ := hbelow p hp
        exact ⟨later, List.mem_cons_of_mem name hlater, hp⟩

/-- The walk through a directory comes to the pages in it in the order of their paths, whatever
disturbs it. -/
theorem brings_pages (hd : d.Named) (depth : Nat) (dir : Path) :
    Brings d (w.pages depth dir) (InOrder dir) := by
  induction depth generalizing dir with
  | zero =>
    intro n ps s' h
    cases h
    exact ⟨rfl, inOrder_nil dir⟩
  | succ depth ih =>
    have hat : ∀ p, Brings d (w.pagesAt depth p) (InOrder p) := by
      intro p n ps s' h
      unfold pagesAt at h
      rw [bind_of_ok _ _ Disturbances.isDirectory_apply] at h
      split at h
      · exact ih p (n + 1) ps s' h
      · cases h
        refine ⟨rfl, ?_⟩
        split
        · exact inOrder_singleton p
        · exact inOrder_nil p
    intro n ps s' h
    rw [pages_succ, bind_of_ok _ _ Disturbances.isDirectory_apply] at h
    cases hdir : w.disturbances.directoryAt d n dir with
    | false =>
      rw [hdir] at h
      cases h
      exact ⟨rfl, inOrder_nil dir⟩
    | true =>
      rw [hdir] at h
      obtain ⟨names, s₁, hlist, hgather⟩ := bind_eq_ok _ _ (congrArg Prod.fst h)
      rw [Disturbances.list_apply] at hlist
      obtain ⟨hnames, rfl⟩ := Prod.mk.inj hlist
      have hlisted := Disturbances.list_of_listAt hnames
      have hname : ∀ name ∈ names.filter (!Text.startsWith · "."), Path.IsName name :=
        fun name hm => hd.isName_of_lists
          ((Disk.lists_of_ok hlisted).mpr (List.mem_filter.mp hm).1)
      obtain ⟨hs', hbefore, hbelow⟩ := brings_gather ((Disk.ascending_of_list hlisted).filter _)
        hname (fun name _ => hat (dir.entry name)) _ _ _ (hgather.symm.trans h)
      refine ⟨hs', fun p hp => ?_, hbefore⟩
      obtain ⟨name, hm, hp⟩ := hbelow p hp
      rw [Path.parts_entry (hname name hm)] at hp
      exact (List.prefix_append _ _).trans hp

end Workspace

namespace Disk

variable {d : Disk} {dir p : Path} {name : Text} {names : List Text} {place : Place}

/-- Whether some names lead from a place to a markdown file, with no hidden name among them. -/
structure PageFrom (d : Disk) (place : Place) (names : List Text) : Prop where
  file : ∃ c, d.view (place ++ names) = some (some c)
  visible : ∀ n ∈ names, Text.startsWith n "." = false
  markdown : ∃ name ∈ names.getLast?, Path.Markdown name

/-- Whether a path leads on to each directory below the place that it leads to, hidden directories
and those in them aside. -/
def Enterable (d : Disk) (dir : Path) (place : Place) : Prop :=
  ∀ names, (∀ n ∈ names, Text.startsWith n "." = false) →
    d.view (place ++ names) = some none → d.isDirectory (dir.within names) = true

theorem Enterable.entry (h : d.Enterable dir place) (hv : Text.startsWith name "." = false) :
    d.Enterable (dir.entry name) (place ++ [name]) := by
  intro names hvisible hview
  rw [List.append_assoc] at hview
  exact h (name :: names) (List.forall_mem_cons.mpr ⟨hv, hvisible⟩) hview

theorem locate_entry_of_isDirectory (hn : Path.IsName name) (hl : d.locate dir = .ok place)
    (h : d.isDirectory (dir.entry name) = true) :
    d.locate (dir.entry name) = .ok (place ++ [name]) ∧ d.view (place ++ [name]) = some none := by
  obtain ⟨q, hq, hv⟩ := isDirectory_iff.mp h
  obtain ⟨-, r, hr, -, -, rfl⟩ := (locate_entry hn).mp hq
  rw [reach_of_locate hl] at hr
  cases hr
  exact ⟨hq, hv⟩

theorem isMarkdown_entry (hn : Path.IsName name) :
    (dir.entry name).isMarkdown = true ↔ Path.Markdown name := by
  rw [← Path.isMarkdown_iff hn, Path.isMarkdown, Path.isMarkdown, Path.extension?, Path.extension?,
    Path.fileName?_entry hn, Path.fileName?_mk hn]

theorem PageFrom.of_page (hd : d.Named) (h : d.Page dir p) (hl : d.locate dir = .ok place)
    (he : d.Enterable dir place) : ∃ names, d.PageFrom place names ∧ p = dir.within names := by
  induction h generalizing place with
  | @here dir name listed visible file markdown =>
    have hn := hd.isName_of_lists listed
    refine ⟨[name], ⟨?_, by simpa using visible, name, rfl, (isMarkdown_entry hn).mp markdown⟩, rfl⟩
    have hthere := (lists_iff hl).mp listed
    rcases hv : d.view (place ++ [name]) with _ | _ | c
    · exact absurd hv hthere
    · have hdir : d.isDirectory (dir.entry name) = true := he [name] (by simpa using visible) hv
      rw [file] at hdir
      cases hdir
    · exact ⟨c, rfl⟩
  | @deeper dir p name listed visible page ih =>
    obtain ⟨hl', -⟩ := locate_entry_of_isDirectory (hd.isName_of_lists listed) hl page.isDirectory
    obtain ⟨names, ⟨hfile, hvisible, last, hlast, hmd⟩, rfl⟩ := ih hl' (he.entry visible)
    rw [List.append_assoc] at hfile
    have hend : last ∈ (name :: names).getLast? := by
      rw [Option.mem_def, List.getLast?_cons, Option.mem_def.mp hlast]
      rfl
    exact ⟨name :: names,
      ⟨hfile, List.forall_mem_cons.mpr ⟨visible, hvisible⟩, last, hend, hmd⟩, rfl⟩

theorem PageFrom.page (hd : d.Named) (h : d.PageFrom place names) (hl : d.locate dir = .ok place)
    (he : d.Enterable dir place) : d.Page dir (dir.within names) := by
  induction names generalizing dir place with
  | nil =>
    obtain ⟨last, hlast, -⟩ := h.markdown
    cases hlast
  | cons name names ih =>
    obtain ⟨c, hc⟩ := h.file
    obtain ⟨visible, hvisible⟩ := List.forall_mem_cons.mp h.visible
    rw [List.append_cons] at hc
    have hthere : d.view (place ++ [name]) ≠ none := by
      cases names with
      | nil =>
        rw [List.append_nil] at hc
        simp [hc]
      | cons next names =>
        rw [view_of_append (by rw [hc]; simp) (by simp)]
        simp
    have hn : Path.IsName name := hd place name hthere
    have listed := (lists_iff hl).mpr hthere
    cases names with
    | nil =>
      obtain ⟨last, hlast, hmd⟩ := h.markdown
      cases hlast
      refine .here listed visible ?_ ((isMarkdown_entry hn).mpr hmd)
      rw [Bool.eq_false_iff]
      intro hdir
      rw [List.append_nil, (locate_entry_of_isDirectory hn hl hdir).2] at hc
      cases hc
    | cons next names =>
      have hv : d.view (place ++ [name]) = some none :=
        view_of_append (by rw [hc]; simp) (by simp)
      have hdir : d.isDirectory (dir.entry name) = true := he [name] (by simpa using visible) hv
      have hl' := (locate_entry_of_isDirectory hn hl hdir).1
      refine .deeper listed visible (ih ⟨⟨c, hc⟩, hvisible, ?_⟩ hl' (he.entry visible))
      rw [← List.getLast?_cons_cons (a := name)]
      exact h.markdown

/-- The pages in a directory are the markdown files below its place, hidden ones and those in hidden
directories aside. -/
theorem page_iff (hd : d.Named) (hl : d.locate dir = .ok place) (he : d.Enterable dir place) :
    d.Page dir p ↔ ∃ names, d.PageFrom place names ∧ p = dir.within names := by
  refine ⟨fun h => PageFrom.of_page hd h hl he, ?_⟩
  rintro ⟨names, h, rfl⟩
  exact h.page hd hl he

/-- Each place below another one can be entered if all that stand on the disk can. -/
theorem enterable_of_places (hl : d.locate dir = .ok place)
    (h : ∀ x ∈ d.places, place.isPrefixOf x.1 = true → d.view x.1 = some none →
      d.isDirectory (dir.within (x.1.drop place.length)) = true) : d.Enterable dir place := by
  intro names _ hv
  cases names with
  | nil =>
    rw [List.append_nil] at hv
    exact isDirectory_iff.mpr ⟨place, hl, hv⟩
  | cons name names =>
    obtain ⟨e, he, -⟩ := Option.map_eq_some_iff.mp hv
    obtain ⟨c, hc⟩ := @Entry.mem_places_of_below? d.root e (place ++ name :: names) [] he
    have hm : (place ++ name :: names, c) ∈ d.places := by
      rcases List.mem_cons.mp hc with hc | hc
      · simp at hc
      · exact hc
    have hdir := h _ hm (List.isPrefixOf_iff_prefix.mpr (List.prefix_append _ _)) hv
    rwa [List.drop_left] at hdir

end Disk

namespace Workspace

variable {w : Workspace} {s : Session}

/-- Whether the walk through the wiki is not disturbed: questions for directories are answered as it
is, and directories are listed. -/
def Walks (w : Workspace) : Prop :=
  ∀ n call, call.operation = .isDirectory ∨ call.operation = .list → w.disturbances n call = .none

theorem Walks.isDirectory (h : w.Walks) :
    w.disturbances.isDirectory = Disturbances.none.isDirectory := by
  funext p s
  unfold Disturbances.isDirectory Disturbances.ask
  rw [h s.calls _ (Or.inl rfl)]
  rfl

theorem Walks.list (h : w.Walks) : w.disturbances.list = Disturbances.none.list := by
  funext p s
  unfold Disturbances.list Disturbances.perform
  rw [h s.calls _ (Or.inr rfl)]
  rfl

/-- Disturbances of other work make no difference to the walk. -/
theorem Walks.wikiPages (h : w.Walks) :
    w.wikiPages = { w with disturbances := .none }.wikiPages := by
  have hpages : ∀ depth dir,
      w.pages depth dir = { w with disturbances := .none }.pages depth dir := by
    intro depth
    induction depth with
    | zero => exact fun _ => rfl
    | succ depth ih =>
      intro dir
      simp only [pages, ih, h.isDirectory, h.list]
  simp only [Workspace.wikiPages, hpages]

/-- The pages that the walk through the wiki comes to are in the strict order of their paths, part
by part, and so none comes twice, whatever disturbs the walk. If nothing does, and each directory of
the wiki can be entered, the walk is done and the pages are the markdown files below the directory
of the wiki, hidden ones and those in hidden directories aside. -/
theorem wikiPages_exact (hd : s.disk.Named) :
    (∀ ps, (w.wikiPages s).1 = .ok ps → ps.Pairwise Path.Before ∧ ps.Nodup) ∧
    (w.Walks →
      (∀ place, s.disk.LeadsTo w.layout.wiki place → s.disk.Enterable w.layout.wiki place) →
      ∃ ps, (w.wikiPages s).1 = .ok ps ∧ ∀ p, p ∈ ps ↔ ∃ place names,
        s.disk.LeadsTo w.layout.wiki place ∧ s.disk.PageFrom place names ∧
          p = w.layout.wiki.within names) := by
  constructor
  · intro ps h
    rw [wikiPages_apply] at h
    obtain ⟨-, hps⟩ := brings_pages hd _ _ _ ps _ (Prod.ext h rfl)
    exact ⟨hps.before, hps.before.imp Path.Before.ne⟩
  · intro hw he
    have hfinds := @finds_wikiPages s.disk { w with disturbances := .none } rfl hd
    obtain ⟨-, ps, hps, hmem⟩ := hfinds.resolve_right fun h => h.1 trivial
    refine ⟨ps, hw.wikiPages ▸ hps.result, fun p => (hmem p).trans ?_⟩
    constructor
    · intro h
      obtain ⟨place, hl, -⟩ := Disk.isDirectory_iff.mp h.isDirectory
      have hleads := Disk.leadsTo_iff.mpr hl
      obtain ⟨names, hpage, rfl⟩ := (Disk.page_iff hd hl (he place hleads)).mp h
      exact ⟨place, names, hleads, hpage, rfl⟩
    · rintro ⟨place, names, hleads, hpage, rfl⟩
      exact hpage.page hd (Disk.leadsTo_iff.mp hleads) (he place hleads)

/-- A wiki with a directory that is named like a page, with a page that shares its stem with a
directory, and with hidden entries. -/
def sharedStemSession : Session :=
  ⟨⟨[("ws", .directory [("docs", .directory [("wiki", .directory [
      ("b.md", .file (.text "")),
      ("b", .directory [("c.MD", .file (.binary [255])), ("c.txt", .file (.text ""))]),
      ("a.md", .directory [("d.md", .file (.text "")), (".e.md", .file (.text ""))]),
      (".git", .directory [("f.md", .file (.text ""))])])])])], []⟩, 0⟩

theorem wikiPages_exact_sharedStem :
    sharedStemSession.disk.Named ∧
    (∀ ps, (sample.wikiPages sharedStemSession).1 = .ok ps → ps.Pairwise Path.Before ∧ ps.Nodup) ∧
    sample.Walks ∧
    (∀ place, sharedStemSession.disk.LeadsTo sample.layout.wiki place →
      sharedStemSession.disk.Enterable sample.layout.wiki place) ∧
    ∃ ps, (sample.wikiPages sharedStemSession).1 = .ok ps ∧ ∀ p, p ∈ ps ↔ ∃ place names,
      sharedStemSession.disk.LeadsTo sample.layout.wiki place ∧
        sharedStemSession.disk.PageFrom place names ∧ p = sample.layout.wiki.within names := by
  have hd : sharedStemSession.disk.Named := Disk.named_of_places (by decide +kernel)
  have hw : sample.Walks := fun _ _ _ => rfl
  have hwiki : sharedStemSession.disk.locate sample.layout.wiki = .ok ["ws", "docs", "wiki"] := by
    decide +kernel
  have he : ∀ place, sharedStemSession.disk.LeadsTo sample.layout.wiki place →
      sharedStemSession.disk.Enterable sample.layout.wiki place := by
    intro place hl
    rw [Disk.leadsTo_iff, hwiki] at hl
    cases hl
    exact Disk.enterable_of_places hwiki (by decide +kernel)
  exact ⟨hd, (wikiPages_exact hd).1, hw, he, (wikiPages_exact hd).2 hw he⟩

/-- The directory comes before the page of its stem, unlike their paths as texts. -/
example : (sample.wikiPages sharedStemSession).1.toOption = some
    [⟨"ws/docs/wiki/a.md/d.md"⟩, ⟨"ws/docs/wiki/b/c.MD"⟩, ⟨"ws/docs/wiki/b.md"⟩] := by
  decide +kernel

end Workspace

end DesignRecords
