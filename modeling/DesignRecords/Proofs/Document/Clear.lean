import DesignRecords.Proofs.Document.Stray
import Mathlib.Logic.Function.Iterate

namespace DesignRecords

namespace Document

open Section

variable {d e : Document} {u : Update} {i : Instant} {k : Heading} {ls : List Text} {t : Text}

/-- Whether there is a header with the name of a section among some lines. -/
def Names (ls : List Text) (k : Heading) : Prop :=
  ∃ s ∈ (opened ls).2, Text.sameIgnoringCase s.header k.text = true

instance : Decidable (Names ls k) :=
  inferInstanceAs (Decidable (∃ s ∈ (opened ls).2, Text.sameIgnoringCase s.header k.text = true))

theorem not_names : ¬ Names ls k ↔
    ∀ s ∈ (opened ls).2, Text.sameIgnoringCase s.header k.text = false := by
  simp [Names]

theorem not_names_of_quiet (h : Quiet ls) : ¬ Names ls k :=
  not_names.mpr (by simp [opened_of_quiet h])

/-- What is read for the diagram where an overview has a header with its name. -/
def strayArchitecture (t : Text) : Text :=
  withoutFence (bodyOf (opened (overviewLinesOf t)).2 (Heading.text .architecture))

/-- What is read for the decisions where some lines before them have a header with their name. -/
def strayDecisions (ls : List Text) : List Decision :=
  Decision.readTable (bodyOf (opened ls).2 (Heading.text .decisions))

/-- Whether a diagram does not come to hide the decisions, however often it is written and read. -/
def ClearArchitecture (t : Text) : Prop :=
  ∀ n, ¬ Names (architectureLinesOf (rereadArchitecture^[n] t)) .decisions

/-- Whether an overview does not come to hide the decisions, nor to be read as a diagram that
does. -/
structure ClearOverview (t : Text) : Prop where
  decisions : ∀ n, ¬ Names (overviewLinesOf (rereadOverview^[n] t)) .decisions
  architecture : ∀ n, Names (overviewLinesOf (rereadOverview^[n] t)) .architecture →
    ClearArchitecture (strayArchitecture (rereadOverview^[n] t))

theorem ClearArchitecture.reread (h : ClearArchitecture t) :
    ClearArchitecture (rereadArchitecture t) := fun n => h (n + 1)

theorem ClearOverview.reread (h : ClearOverview t) : ClearOverview (rereadOverview t) where
  decisions n := h.decisions (n + 1)
  architecture n := h.architecture (n + 1)

theorem iterate_steady {reread : Text → Text} (h : reread (reread t) = reread t) (n : Nat) :
    reread^[n + 1] t = reread t := Function.iterate_fixed h n

theorem clearArchitecture_of_contained (h : ArchitectureContained t) : ClearArchitecture t := by
  intro n
  cases n with
  | zero => exact not_names.mpr fun s hs => h.strays s hs _ (by decide)
  | succ n =>
    rw [iterate_steady h.steady]
    exact not_names_of_quiet (quiet_of_rereadArchitecture h.steady)

theorem clearOverview_of_contained (h : OverviewContained t) : ClearOverview t := by
  have hn : ∀ k ∈ behindOverview, ∀ n, ¬ Names (overviewLinesOf (rereadOverview^[n] t)) k := by
    intro k hk n
    cases n with
    | zero => exact not_names.mpr fun s hs => h.strays s hs k hk
    | succ n =>
      rw [iterate_steady h.steady]
      exact not_names_of_quiet (quiet_of_rereadOverview h.steady)
  exact ⟨hn .decisions (by decide), fun n hm => absurd hm (hn .architecture (by decide) n)⟩

theorem clearOverview_of_reread (hd : ¬ Names (overviewLinesOf t) .decisions)
    (ha : ¬ Names (overviewLinesOf t) .architecture) (h : ClearOverview (rereadOverview t)) :
    ClearOverview t where
  decisions n := by
    cases n with
    | zero => exact hd
    | succ n => exact h.decisions n
  architecture n hn := by
    cases n with
    | zero => exact absurd hn ha
    | succ n => exact h.architecture n hn

/-- An overview without headers is clear, unless a header with the name of the decisions or of the
diagram comes to stand at its start when the blanks before it are cut. -/
theorem clearOverview_of_unheaded (h : t.Unheaded)
    (hd : ¬ Names (overviewLinesOf t.settledOverview) .decisions)
    (ha : ¬ Names (overviewLinesOf t.settledOverview) .architecture) : ClearOverview t := by
  have hq := quiet_overviewLinesOf h.returns h.headers
  refine clearOverview_of_reread (not_names_of_quiet hq) (not_names_of_quiet hq) ?_
  rw [rereadOverview_of_unheaded h]
  refine clearOverview_of_reread hd ha ?_
  by_cases hh : isHeader t.settledOverview = true
  · rw [rereadOverview_of_header (Text.firm_of_no_return h.not_return_mem_settledOverview) hh]
    exact clearOverview_of_contained
      (overviewContained_of_unheaded ⟨by decide, by decide⟩ (by decide))
  · have hs := overviewContained_of_unheaded h (by simpa using hh)
    rw [← rereadOverview_of_unheaded h, hs.steady]
    exact (clearOverview_of_contained hs).reread

/-- Whether the decisions of a document are found again, however often it is written and read. -/
structure Clear (d : Document) : Prop where
  overview : ClearOverview d.overview
  architecture : ClearArchitecture d.architecture
  plain : ∀ x ∈ d.decisions, x.Plain

theorem Sound.clear (h : d.Sound) : d.Clear where
  overview := clearOverview_of_contained h.overview
  architecture := clearArchitecture_of_contained h.architecture
  plain := h.decisions

theorem Clear.updated (h : d.Clear) (o : Option Instant) : { d with updated := o }.Clear :=
  { h with }

theorem Clear.decisions_read (h : d.Clear) (ht : d.task.Headless) :
    (read d.task d.render).decisions = Decision.settledTable d.decisions := by
  refine Document.decisions_read (isHeader_frontLines ht) (fun s hs => ?_) h.plain _
  rcases List.mem_append.mp hs with hs | hs
  · exact not_names.mp (h.overview.decisions 0) s hs
  · exact not_names.mp (h.architecture 0) s hs

theorem architecture_of_names (ht : d.task.Headless)
    (hn : Names (overviewLinesOf d.overview) .architecture) :
    (read d.task d.render).architecture = strayArchitecture d.overview := by
  simp only [read, split_render (isHeader_frontLines ht)]
  rw [bodyOf_of_stray_overview (by decide) hn]
  rfl

theorem Clear.read (h : d.Clear) (ht : d.task.Headless) : (read d.task d.render).Clear where
  overview := by
    rw [overview_read (isHeader_frontLines ht)]
    exact h.overview.reread
  architecture := by
    by_cases hn : Names (overviewLinesOf d.overview) .architecture
    · rw [architecture_of_names ht hn]
      exact h.overview.architecture 0 hn
    · rw [architecture_read (isHeader_frontLines ht) (not_names.mp hn)]
      exact h.architecture.reread
  plain := by
    rw [h.decisions_read ht]
    exact plain_of_mem_settledTable h.plain

/-- Whether a document has some decisions and keeps them. -/
structure Retains (xs : List Decision) (d : Document) : Prop where
  clear : d.Clear
  decisions : xs ⊆ d.decisions

/-- Decisions that are settled are read back of a document that has them, whenever it was
written. -/
theorem retains_read {xs : List Decision} (h : d.Clear)
    (hd : xs ⊆ Decision.settledTable d.decisions) (ht : d.task.Headless) (o : Option Instant) :
    (read d.task { d with updated := o }.render).Retains xs where
  clear := (h.updated o).read ht
  decisions := by
    have hr : (read d.task { d with updated := o }.render).decisions =
        Decision.settledTable d.decisions := (h.updated o).decisions_read ht
    rwa [hr]

end Document

namespace Update

variable {u : Update} {d : Document}

/-- Whether what a change writes does not come to hide the decisions. -/
def Clear : Update → Prop
  | overview c => Document.ClearOverview c
  | architecture c => Document.ClearArchitecture c
  | _ => True

theorem Safe.clear (h : u.Safe) : u.Clear := by
  cases u with
  | overview c => exact Document.clearOverview_of_contained h
  | architecture c => exact Document.clearArchitecture_of_contained h
  | decision c => trivial
  | component c => trivial

theorem Clear.apply (hu : u.Clear) (hd : d.Clear) : (u.apply d).Clear := by
  cases u with
  | overview c => exact { hd with overview := hu }
  | architecture c => exact { hd with architecture := hu }
  | decision c =>
    refine { hd with plain := fun x hx => ?_ }
    rcases List.mem_append.mp hx with hx | hx
    · exact hd.plain x hx
    · rw [List.mem_singleton.mp hx]
      exact Document.plain_stated c
  | component c => exact { hd with }

theorem subset_decisions_apply (u : Update) (d : Document) :
    d.decisions ⊆ (u.apply d).decisions := by
  cases u with
  | decision c => exact List.subset_append_left _ _
  | _ => exact List.Subset.refl _

end Update

namespace Document

open Section

variable {d e : Document} {u : Update} {i : Instant} {t : Text} {xs : List Decision}

theorem subset_settledTable (hxs : Decision.settledTable xs = xs) {ds : List Decision}
    (h : xs ⊆ ds) : xs ⊆ Decision.settledTable ds := by
  rw [← hxs]
  exact List.filter_subset _ (List.map_subset _ h)

theorem Clear.merged (h : d.Clear) (requirements adrs : List Text) {ds : List Decision}
    (hd : ∀ x ∈ ds, x.Plain) : (d.merged requirements ds adrs).Clear where
  overview := h.overview
  architecture := h.architecture
  plain x hx := by
    rcases List.mem_append.mp hx with hx | hx
    · exact h.plain x hx
    · exact hd x (mem_of_mem_newBy hx)

theorem Retains.revised (h : d.Retains xs) (hxs : Decision.settledTable xs = xs)
    (ht : d.task.Headless) (hu : u.Clear) (i : Instant) : (d.revised u i).Retains xs := by
  have hsub := subset_settledTable hxs (List.Subset.trans h.decisions (u.subset_decisions_apply d))
  have htask : d.task = (u.apply d).task := by cases u <;> rfl
  rw [Document.revised, htask]
  exact retains_read (hu.apply h.clear) hsub (headless_apply ht u) (some i)

theorem Retains.merged (h : d.Retains xs) (hxs : Decision.settledTable xs = xs)
    (ht : d.task.Headless) (requirements adrs : List Text) {ds : List Decision}
    (hd : ∀ x ∈ ds, x.Plain) (i : Instant) :
    (read d.task { d.merged requirements ds adrs with updated := some i }.render).Retains xs := by
  have hsub : xs ⊆ (d.merged requirements ds adrs).decisions :=
    List.Subset.trans h.decisions (List.subset_append_left _ _)
  exact retains_read (h.clear.merged requirements adrs hd) (subset_settledTable hxs hsub) ht
    (some i)

/-- Changes that are clear keep the decisions of a document. -/
theorem preserved_retains {task : Text} (ht : task.Headless)
    (hxs : Decision.settledTable xs = xs) : Preserved task Update.Clear (Retains xs) where
  revised he hd hu i := hd.revised hxs (he.symm ▸ ht) hu i
  merged := by
    rintro d ds rfl hd hp requirements adrs i
    exact hd.merged hxs ht requirements adrs hp i

theorem Clear.retains_stated {c : Text} (h : d.Clear) (hc : c.blank = false)
    (ht : d.task.Headless) (i : Instant) :
    (d.revised (.decision c) i).Retains [Decision.stated c.flat] := by
  have hu : (Update.decision c).Clear := trivial
  have hs : Decision.stated c.flat ∈ Decision.settledTable (d.decisions ++ [.stated c]) := by
    refine List.mem_filter.mpr ⟨List.mem_map.mpr ⟨.stated c, by simp, rfl⟩, ?_⟩
    simp [Decision.stated, Text.flat_eq_nil, hc]
  exact retains_read (hu.apply h) (List.cons_subset.mpr ⟨hs, List.nil_subset _⟩) ht (some i)

/-- A document once some changes have been made, all at one time. -/
def revisedBy (d : Document) (us : List Update) (i : Instant) : Document :=
  us.foldl (fun d u => d.revised u i) d

theorem revisedBy_append (d : Document) (us vs : List Update) (i : Instant) :
    d.revisedBy (us ++ vs) i = (d.revisedBy us i).revisedBy vs i := List.foldl_append

theorem revisedBy_nil (d : Document) (i : Instant) : d.revisedBy [] i = d := rfl

theorem revisedBy_cons (d : Document) (u : Update) (us : List Update) (i : Instant) :
    d.revisedBy (u :: us) i = (d.revised u i).revisedBy us i := by
  rw [revisedBy, List.foldl_cons, revisedBy]

theorem task_revisedBy (d : Document) (us : List Update) (i : Instant) :
    (d.revisedBy us i).task = d.task := by
  induction us generalizing d with
  | nil => rfl
  | cons u us ih =>
    rw [revisedBy_cons, ih]
    exact task_read _ _

theorem decisions_of_overview (ht : d.task.Headless)
    (h : Names (overviewLinesOf d.overview) .decisions) :
    (read d.task d.render).decisions = strayDecisions (overviewLinesOf d.overview) := by
  simp only [read, split_render (isHeader_frontLines ht)]
  rw [bodyOf_of_stray_overview (by decide) h]
  rfl

theorem decisions_of_architecture (ht : d.task.Headless)
    (ho : rereadOverview d.overview = d.overview)
    (h : Names (architectureLinesOf d.architecture) .decisions) :
    (read d.task d.render).decisions = strayDecisions (architectureLinesOf d.architecture) := by
  simp only [read, split_render (isHeader_frontLines ht)]
  rw [bodyOf_of_stray_architecture (quiet_of_rereadOverview ho) (by decide) (by decide) h]
  rfl

def written (d : Document) (u : Update) (i : Instant) : Document :=
  { u.apply d with updated := some i }

theorem revised_eq_read (d : Document) (u : Update) (i : Instant) :
    d.revised u i = read (d.written u i).task (d.written u i).render := by
  have htask : (d.written u i).task = d.task := by cases u <;> rfl
  rw [htask]
  rfl

/-- A change to add a component, of no interest to the other sections. -/
def idleUpdate : Update := .component "x"

/-- The document that is written last when idle changes follow a first one: its overview and its
diagram have been read back as often as there were such changes. -/
theorem exists_written (ht : d.task.Headless) (i : Instant) (n : Nat) :
    ∃ e : Document, e.task = d.task ∧ e.overview = rereadOverview^[n] d.overview ∧
      (rereadOverview d.overview = d.overview →
        e.architecture = rereadArchitecture^[n] d.architecture) ∧
      (read d.task d.render).revisedBy (List.replicate n idleUpdate) i = read e.task e.render := by
  -- The document written after the last change is read once more by the change that follows.
  induction n with
  | zero => exact ⟨d, rfl, rfl, fun _ => rfl, by rw [List.replicate_zero, revisedBy_nil]⟩
  | succ n ih =>
    obtain ⟨e, htask, ho, ha, hr⟩ := ih
    have he := isHeader_frontLines (htask.symm ▸ ht : e.task.Headless)
    have hx : (read e.task e.render).task = d.task := (task_read _ _).trans htask
    have hxo := overview_read he e.task
    rw [ho, ← Function.iterate_succ_apply' rereadOverview] at hxo
    have hxa : rereadOverview d.overview = d.overview → (read e.task e.render).architecture =
        rereadArchitecture^[n + 1] d.architecture := by
      intro hs
      have hq : e.overview = d.overview := ho.trans (Function.iterate_fixed hs n)
      have hquiet : Quiet (overviewLinesOf e.overview) := quiet_of_rereadOverview (hq.symm ▸ hs)
      rw [Function.iterate_succ_apply', ← ha hs]
      exact architecture_read he (not_names.mp (not_names_of_quiet hquiet)) _
    rw [List.replicate_succ', revisedBy_append, hr]
    generalize read e.task e.render = x at hx hxo hxa
    refine ⟨x.written idleUpdate i, hx, hxo, hxa, ?_⟩
    rw [revisedBy_cons, revisedBy_nil, revised_eq_read]

theorem headless_written (ht : d.task.Headless) (u : Update) (i : Instant) :
    (d.written u i).task.Headless := headless_apply ht u

/-- Idle changes behind one that brings in an overview with a header that hides the decisions in the
end. -/
theorem decisions_revisedBy_overview (ht : d.task.Headless) (i : Instant) {n : Nat}
    (h : Names (overviewLinesOf (rereadOverview^[n] (u.apply d).overview)) .decisions) :
    (d.revisedBy (u :: List.replicate n idleUpdate) i).decisions =
      strayDecisions (overviewLinesOf (rereadOverview^[n] (u.apply d).overview)) := by
  obtain ⟨e, htask, ho, -, hr⟩ := exists_written (headless_written ht u i) i n
  have ho : e.overview = rereadOverview^[n] (u.apply d).overview := ho
  rw [← ho] at h ⊢
  rw [revisedBy_cons, revised_eq_read, hr,
    decisions_of_overview (htask ▸ headless_written ht u i) h]

/-- Idle changes behind one that brings in a diagram with a header that hides the decisions in the
end. -/
theorem decisions_revisedBy_architecture (ht : d.task.Headless)
    (hs : rereadOverview (u.apply d).overview = (u.apply d).overview) (i : Instant) {n : Nat}
    (h : Names (architectureLinesOf (rereadArchitecture^[n] (u.apply d).architecture))
      .decisions) :
    (d.revisedBy (u :: List.replicate n idleUpdate) i).decisions =
      strayDecisions
        (architectureLinesOf (rereadArchitecture^[n] (u.apply d).architecture)) := by
  obtain ⟨e, htask, ho, ha, hr⟩ := exists_written (headless_written ht u i) i n
  have hq : e.overview = (u.apply d).overview := ho.trans (Function.iterate_fixed hs n)
  have ha : e.architecture = rereadArchitecture^[n] (u.apply d).architecture := ha hs
  rw [← ha] at h ⊢
  rw [revisedBy_cons, revised_eq_read, hr,
    decisions_of_architecture (htask ▸ headless_written ht u i) (hq.symm ▸ hs) h]

/-- A part of an overview with a header that has the name of the diagram is the diagram in the
end. -/
theorem architecture_revisedBy (ht : d.task.Headless) (i : Instant) {n : Nat}
    (h : Names (overviewLinesOf (rereadOverview^[n] (u.apply d).overview)) .architecture) :
    (d.revisedBy (u :: List.replicate n idleUpdate) i).architecture =
      strayArchitecture (rereadOverview^[n] (u.apply d).overview) := by
  obtain ⟨e, htask, ho, -, hr⟩ := exists_written (headless_written ht u i) i n
  have ho : e.overview = rereadOverview^[n] (u.apply d).overview := ho
  rw [← ho] at h ⊢
  rw [revisedBy_cons, revised_eq_read, hr,
    architecture_of_names (htask ▸ headless_written ht u i) h]

/-- A change of the overview that is quiet, so that the diagram is read as it was written. -/
def plainUpdate : Update := .overview "x"

theorem rereadOverview_plain : rereadOverview "x" = "x".toList := by
  rw [rereadOverview_of_unheaded ⟨by decide, by decide⟩]
  decide

/-- Whether a change can be followed by others that do not matter to the decisions, so that in the
end the same decisions are read whatever they have been before. -/
def Loses (u : Update) (i : Instant) : Prop :=
  ∃ ds us, (∀ v ∈ us, v = u ∨ v = idleUpdate ∨ v = plainUpdate) ∧
    ∀ d : Document, d.task.Headless → rereadOverview d.overview = d.overview →
      (d.revisedBy us i).decisions = ds

theorem eq_or_of_mem_idle {v : Update} {n : Nat} (hv : v ∈ u :: List.replicate n idleUpdate) :
    v = u ∨ v = idleUpdate ∨ v = plainUpdate :=
  (List.mem_cons.mp hv).imp_right fun hv => Or.inl (List.eq_of_mem_replicate hv)

theorem loses_architecture {c : Text} {n : Nat}
    (hn : Names (architectureLinesOf (rereadArchitecture^[n] c)) .decisions) (i : Instant) :
    Loses (.architecture c) i := by
  refine ⟨strayDecisions (architectureLinesOf (rereadArchitecture^[n] c)),
    .architecture c :: List.replicate n idleUpdate, fun _ => eq_or_of_mem_idle, fun d ht ho => ?_⟩
  exact @decisions_revisedBy_architecture d (.architecture c) ht ho i n hn

theorem loses_overview {c : Text} {n : Nat}
    (hn : Names (overviewLinesOf (rereadOverview^[n] c)) .decisions) (i : Instant) :
    Loses (.overview c) i := by
  refine ⟨strayDecisions (overviewLinesOf (rereadOverview^[n] c)),
    .overview c :: List.replicate n idleUpdate, fun _ => eq_or_of_mem_idle, fun d ht _ => ?_⟩
  exact @decisions_revisedBy_overview d (.overview c) ht i n hn

/-- An overview that becomes a diagram loses what that diagram does. -/
theorem loses_overview_of_architecture {c : Text} {n : Nat}
    (hn : Names (overviewLinesOf (rereadOverview^[n] c)) .architecture)
    (hc : ¬ ClearArchitecture (strayArchitecture (rereadOverview^[n] c))) (i : Instant) :
    Loses (.overview c) i := by
  obtain ⟨m, hm⟩ := not_forall_not.mp hc
  -- Idle changes until the part of the overview is the diagram, one that replaces the overview so
  -- that the diagram stays, and idle changes until the diagram hides the decisions.
  refine ⟨strayDecisions (architectureLinesOf (rereadArchitecture^[m]
    (strayArchitecture (rereadOverview^[n] c)))), .overview c :: List.replicate n idleUpdate ++
      plainUpdate :: List.replicate m idleUpdate, fun v hv => ?_, fun d ht _ => ?_⟩
  · rcases List.mem_append.mp hv with hv | hv
    · exact eq_or_of_mem_idle hv
    · rcases eq_or_of_mem_idle hv with rfl | hv
      · exact Or.inr (Or.inr rfl)
      · exact Or.inr hv
  · have hstray := @architecture_revisedBy d (.overview c) ht i n hn
    have htask := d.task_revisedBy (.overview c :: List.replicate n idleUpdate) i
    rw [revisedBy_append]
    generalize d.revisedBy (.overview c :: List.replicate n idleUpdate) i = e at hstray htask
    have hstray : e.architecture = strayArchitecture (rereadOverview^[n] c) := hstray
    rw [← hstray] at hm ⊢
    exact @decisions_revisedBy_architecture e plainUpdate (htask ▸ ht) rereadOverview_plain i m hm

theorem loses_of_not_clear (hu : ¬ u.Clear) (i : Instant) : Loses u i := by
  cases u with
  | decision c => exact absurd trivial hu
  | component c => exact absurd trivial hu
  | architecture c =>
    obtain ⟨n, hn⟩ := not_forall_not.mp hu
    exact loses_architecture hn i
  | overview c =>
    by_cases hd : ∀ n, ¬ Names (overviewLinesOf (rereadOverview^[n] c)) .decisions
    · by_contra hno
      exact hu ⟨hd, fun n hn =>
        not_not.mp fun hc => hno (loses_overview_of_architecture hn hc i)⟩
    · obtain ⟨n, hn⟩ := not_forall_not.mp hd
      exact loses_overview hn i

end Document

end DesignRecords
