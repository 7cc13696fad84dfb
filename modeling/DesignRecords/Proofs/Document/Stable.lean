import DesignRecords.Proofs.Document.Reread
import DesignRecords.Proofs.Document.Revision
import DesignRecords.Workspace.Store

namespace DesignRecords

namespace Text

variable {l t : Text}

/-- Whether no line of a text but the first one starts a section. -/
def Headless (t : Text) : Prop := ∀ l ∈ (broken t).tail, Section.isHeader l = false

instance : Decidable t.Headless :=
  inferInstanceAs (Decidable (∀ l ∈ (broken t).tail, Section.isHeader l = false))

theorem prefix_dropReturn (l : Text) : dropReturn l <+: l := by
  rcases dropReturn_cases l with h | h
  · exact ⟨[], by rw [h, List.append_nil]⟩
  · exact ⟨['\r'], h.symm⟩

/-- A text that is written behind a label changes the first of its lines alone. -/
theorem exists_broken_append (hl : '\n' ∉ l) (t : Text) :
    ∃ x, x <+: l ++ t ∧ broken (l ++ t) = x :: (broken t).tail := by
  rcases first_piece_cases '\n' t with ht | ⟨x, y, hx, rfl⟩
  · refine ⟨dropReturn (l ++ t), prefix_dropReturn _, ?_⟩
    rw [broken_of_no_feed (by simp [hl, ht]), broken_of_no_feed ht]
    rfl
  · refine ⟨dropReturn (l ++ x), ?_, ?_⟩
    · refine (prefix_dropReturn _).trans ?_
      rw [← List.append_assoc]
      exact List.prefix_append _ _
    · rw [← List.append_assoc, broken, splitOn_piece (by simp [hl, hx]), broken,
        splitOn_piece hx]
      rfl

end Text

namespace Document

open Section

variable {d : Document}

theorem exists_broken_taskLine (d : Document) :
    ∃ x, x <+: d.taskLine ∧ Text.broken d.taskLine = x :: (Text.broken d.task).tail :=
  Text.exists_broken_append (l := Label.task ++ (" " : Text)) (by decide) d.task

theorem isHeader_frontLines (h : d.task.Headless) : ∀ l ∈ d.frontLines, isHeader l = false := by
  intro l hl
  obtain ⟨x, hx, hb⟩ := d.exists_broken_taskLine
  rw [frontLines, broken_headLines, hb] at hl
  simp only [List.mem_append, List.mem_cons, List.not_mem_nil, or_false] at hl
  rcases hl with ((rfl | rfl | rfl | hl) | hl) | rfl
  · rfl
  · rfl
  · rw [← Bool.not_eq_true]
    intro hh
    cases Text.isHeader_mono hx hh
  · exact h l hl
  · have hm : l ∈ d.headLines := by
      rw [headLines_eq]
      simp [hl]
    exact isHeader_headLines hm
  · rfl

/-- The title as it is read back. -/
def titleRead (d : Document) : Text := if d.writtenTitle.blank then d.task else d.writtenTitle.flat

theorem blank_task_of_writtenTitle (h : d.writtenTitle.blank = true) : d.task.blank = true := by
  unfold writtenTitle orIfBlank at h
  split at h
  · exact h
  next hb => exact absurd h hb

/-- Where neither title nor task says anything, no line of the head is read as a title. -/
theorem findSome?_title_of_blank (h : d.writtenTitle.blank = true) :
    (Text.lines (Text.ofLines d.frontLines)).findSome? titleOnLine? = none := by
  have ht := blank_task_of_writtenTitle h
  obtain ⟨x, hx, hb⟩ := d.exists_broken_taskLine
  have hnone : ∀ l : Text, ¬ ("# " : Text) <+: l → titleOnLine? l = none := by
    intro l hl
    have ha : Text.after? "# " l = none := by
      rw [Option.eq_none_iff_forall_ne_some]
      intro s hs
      exact hl ⟨s, List.isPrefixOf?_eq_some_iff_append_eq.mp hs⟩
    rw [titleOnLine?, ha]
    rfl
  rw [frontLines, lines_preamble, List.findSome?_eq_none_iff]
  intro l hl
  simp only [List.cons_append, List.mem_append, List.mem_cons, List.mem_map, hb] at hl
  rcases hl with rfl | rfl | ⟨l, rfl | hl, rfl⟩ | hl
  · rw [titleOnLine?_titleLine, h]
    rfl
  · rfl
  · apply hnone
    intro hp
    obtain ⟨s, hs⟩ := (hp.trans (Text.prefix_dropReturn l)).trans hx
    exact absurd (List.cons.inj hs).1 (by decide)
  · apply hnone
    intro hp
    obtain ⟨p, hm, rfl⟩ := List.mem_map.mp (List.mem_of_mem_tail hl)
    have hc : '#' ∈ p := ((hp.trans (Text.prefix_dropReturn _)).trans
      (Text.prefix_dropReturn p)).subset (by decide)
    exact absurd (Text.blank_iff.mp ht '#' (Text.mem_of_mem_splitOn hm hc).1) (by decide)
  · obtain ⟨i, -, rfl⟩ := Option.map_eq_some_iff.mp (Option.mem_toList.mp hl)
    rfl

theorem getD_findSome?_title (d : Document) :
    ((Text.lines (Text.ofLines d.frontLines)).findSome? titleOnLine?).getD d.task =
      d.titleRead := by
  unfold titleRead
  split
  next h =>
    rw [findSome?_title_of_blank h]
    rfl
  next h =>
    rw [frontLines, findSome?_title (by simpa using h)]
    rfl

/-- What a document must be like for each of its sections to be found again. -/
structure Sound (d : Document) : Prop where
  overview : OverviewContained d.overview
  architecture : ArchitectureContained d.architecture
  components : (d.components.map Component.settled).map Component.settled =
    d.components.map Component.settled
  decisions : ∀ x ∈ d.decisions, x.Plain

/-- What is read back of a sound document. -/
def reread (d : Document) : Document where
  task := d.task
  title := d.titleRead
  overview := rereadOverview d.overview
  architecture := rereadArchitecture d.architecture
  components := d.components.map Component.settled
  decisions := Decision.settledTable d.decisions
  adrs := Text.settledList d.adrs
  requirements := Text.settledList d.requirements
  updated := (Text.lines (Text.ofLines d.frontLines)).findSome? updatedOnLine?

theorem overview_reread (d : Document) : d.reread.overview = rereadOverview d.overview := by
  rw [reread]

theorem architecture_reread (d : Document) :
    d.reread.architecture = rereadArchitecture d.architecture := by
  rw [reread]

theorem Sound.findable (h : d.Sound) (ht : d.task.Headless) : d.Findable where
  front := isHeader_frontLines ht
  strays k s hs := by
    cases k with
    | overview => simp [strays] at hs
    | architecture => exact h.overview.strays s hs _ (by decide)
    | _ =>
      rcases List.mem_append.mp hs with hs | hs
      · exact h.overview.strays s hs _ (by decide)
      · exact h.architecture.strays s hs _ (by decide)

theorem Sound.read_render (h : d.Sound) (ht : d.task.Headless) :
    read d.task d.render = d.reread := by
  rw [(h.findable ht).read_render h.decisions, getD_findSome?_title]
  rfl

/-- Whether all of a document but its time is read back as it is. -/
structure Stable (d : Document) : Prop where
  title : d.titleRead = d.title
  overview : rereadOverview d.overview = d.overview
  architecture : rereadArchitecture d.architecture = d.architecture
  components : d.components.map Component.settled = d.components
  decisions : Decision.settledTable d.decisions = d.decisions
  plain : ∀ x ∈ d.decisions, x.Plain
  adrs : Text.settledList d.adrs = d.adrs
  requirements : Text.settledList d.requirements = d.requirements

theorem Stable.sound (h : d.Stable) : d.Sound where
  overview := Contained.of_quiet h.overview (quiet_of_rereadOverview h.overview)
  architecture := Contained.of_quiet h.architecture (quiet_of_rereadArchitecture h.architecture)
  components := by rw [h.components, h.components]
  decisions := h.plain

theorem titleRead_reread (d : Document) : d.reread.titleRead = d.titleRead := by
  have hw : d.reread.writtenTitle = orIfBlank d.titleRead d.task := rfl
  have ht : d.reread.task = d.task := rfl
  rw [titleRead, hw, ht]
  cases hb : d.writtenTitle.blank with
  | true =>
    have hr : d.titleRead = d.task := by rw [titleRead, hb, if_pos rfl]
    rw [hr, orIfBlank, ite_self, if_pos (blank_task_of_writtenTitle hb)]
  | false =>
    have hr : d.titleRead = d.writtenTitle.flat := by
      rw [titleRead, hb]
      rfl
    have hf : d.writtenTitle.flat.blank = false := by
      rw [Text.flat, Text.blank_trim, Text.blank_singleLine, hb]
    rw [hr, orIfBlank_of_not hf, hf, Text.flat_flat]
    rfl

theorem plain_settled {x : Decision} (h : x.Plain) : x.settled.Plain where
  date := h.date
  source hc := by
    have hs : x.settled.source.flat = x.source.flat := Text.flat_flat _
    rw [hs]
    exact h.source hc

theorem plain_of_mem_settledTable {ds : List Decision} (h : ∀ x ∈ ds, x.Plain) :
    ∀ x ∈ Decision.settledTable ds, x.Plain := by
  intro x hx
  obtain ⟨y, hy, rfl⟩ := List.mem_map.mp (List.mem_filter.mp hx).1
  exact plain_settled (h y hy)

/-- What is read back of a sound document is read back as it is from then on. -/
theorem Sound.stable_reread (h : d.Sound) : d.reread.Stable where
  title := d.titleRead_reread
  overview := by rw [overview_reread, h.overview.steady]
  architecture := by rw [architecture_reread, h.architecture.steady]
  components := h.components
  decisions := Decision.settledTable_settledTable d.decisions
  plain := plain_of_mem_settledTable h.decisions
  adrs := Text.settledList_settledList d.adrs
  requirements := Text.settledList_settledList d.requirements

theorem Sound.updated (h : d.Sound) (o : Option Instant) : { d with updated := o }.Sound :=
  { h with }

/-- What is read of a sound document that was written at some time is stable. -/
theorem Sound.stable_read (h : d.Sound) (ht : d.task.Headless) (o : Option Instant) :
    (read d.task { d with updated := o }.render).Stable := by
  have hr : read d.task { d with updated := o }.render = { d with updated := o }.reread :=
    (h.updated o).read_render ht
  rw [hr]
  exact (h.updated o).stable_reread

end Document

namespace Update

variable {u : Update} {d d' : Document}

/-- The section that is changed. -/
def heading : Update → Heading
  | overview _ => .overview
  | architecture _ => .architecture
  | decision _ => .decisions
  | component _ => .components

/-- Every change can be asked for by the name of its section. -/
theorem exists_section (u : Update) : ∃ name content, ofSection? name content = some u :=
  match u with
  | overview c => ⟨"overview", c, rfl⟩
  | architecture c => ⟨"architecture", c, rfl⟩
  | decision c => ⟨"decisions", c, rfl⟩
  | component c => ⟨"components", c, rfl⟩

/-- Whether a document has lost nothing by a change: all but the changed section is as it was, and
decisions and components are only added to. -/
structure Frames (u : Update) (d d' : Document) : Prop where
  title : d'.title = d.title
  overview : u.heading ≠ .overview → d'.overview = d.overview
  architecture : u.heading ≠ .architecture → d'.architecture = d.architecture
  components : if u.heading = .components then d.components <+: d'.components
    else d'.components = d.components
  decisions : if u.heading = .decisions then d.decisions <+: d'.decisions
    else d'.decisions = d.decisions
  adrs : d'.adrs = d.adrs
  requirements : d'.requirements = d.requirements

/-- Whether what a change writes keeps to its section. -/
def Safe : Update → Prop
  | overview c => Document.OverviewContained c
  | architecture c => Document.ArchitectureContained c
  | _ => True

instance : Decidable u.Safe :=
  match u with
  | overview c => inferInstanceAs (Decidable (Document.OverviewContained c))
  | architecture c => inferInstanceAs (Decidable (Document.ArchitectureContained c))
  | decision _ => .isTrue trivial
  | component _ => .isTrue trivial

end Update

namespace Document

open Section

variable {d : Document} {u : Update}

theorem settled_named (c : Text) : (Component.named c).settled = .named c.flat := rfl

theorem Stable.sound_apply (h : d.Stable) (hu : u.Safe) : (u.apply d).Sound := by
  cases u with
  | overview c => exact { h.sound with overview := hu }
  | architecture c => exact { h.sound with architecture := hu }
  | decision c =>
    refine { h.sound with decisions := fun x hx => ?_ }
    rcases List.mem_append.mp hx with hx | hx
    · exact h.plain x hx
    · rw [List.mem_singleton.mp hx]
      exact plain_stated c
  | component c =>
    have hc : (Component.named c.flat).settled = .named c.flat := by
      rw [settled_named, Text.flat_flat]
    have hs : (d.components ++ [Component.named c]).map Component.settled =
        d.components ++ [Component.named c.flat] := by
      rw [List.map_append, h.components]
      rfl
    refine { h.sound with components := ?_ }
    change ((d.components ++ [Component.named c]).map Component.settled).map Component.settled =
      (d.components ++ [Component.named c]).map Component.settled
    rw [hs, List.map_append, h.components, List.map_singleton, hc]

/-- What is new is taken from what is offered, in the same order. -/
theorem newBy_sublist {α : Type} (words : α → List Text) (known : List (List Text))
    (xs : List α) : (newBy words known xs).Sublist xs := by
  induction xs generalizing known with
  | nil => exact .slnil
  | cons x xs ih =>
    unfold newBy
    dsimp only
    split
    · exact .cons x (ih known)
    · exact .cons_cons x (ih _)

theorem mem_of_mem_newBy {α : Type} {words : α → List Text} {known : List (List Text)} {x : α}
    {xs : List α} (h : x ∈ newBy words known xs) : x ∈ xs :=
  (newBy_sublist words known xs).subset h

/-- Whatever requirements, links and plain decisions are added, all sections are found again. -/
theorem Stable.sound_merged (h : d.Stable) (requirements adrs : List Text) {ds : List Decision}
    (hd : ∀ x ∈ ds, x.Plain) : (d.merged requirements ds adrs).Sound := by
  refine { h.sound with decisions := fun x hx => ?_ }
  rcases List.mem_append.mp hx with hx | hx
  · exact h.plain x hx
  · exact hd x (mem_of_mem_newBy hx)

theorem sound_scaffold (task : Text) : (scaffold task).Sound where
  overview := (by decide : OverviewContained overviewPlaceholder)
  architecture := (by decide : ArchitectureContained defaultArchitecture)
  components := rfl
  decisions := by simp [scaffold]

/-- What is read back after a change differs in the changed section alone. -/
theorem Stable.frames (h : d.Stable) (u : Update) : u.Frames d (u.apply d).reread := by
  have ho : ∀ e : Document, e.overview = d.overview → e.reread.overview = d.overview := by
    intro e he
    rw [overview_reread, he, h.overview]
  have ha : ∀ e : Document, e.architecture = d.architecture →
      e.reread.architecture = d.architecture := by
    intro e he
    rw [architecture_reread, he, h.architecture]
  cases u with
  | overview c =>
    exact
      { title := h.title
        overview := fun hn => absurd rfl hn
        architecture := fun _ => ha _ rfl
        components := h.components
        decisions := h.decisions
        adrs := h.adrs
        requirements := h.requirements }
  | architecture c =>
    exact
      { title := h.title
        overview := fun _ => ho _ rfl
        architecture := fun hn => absurd rfl hn
        components := h.components
        decisions := h.decisions
        adrs := h.adrs
        requirements := h.requirements }
  | decision c =>
    have hd : d.decisions <+: Decision.settledTable (d.decisions ++ [Decision.stated c]) := by
      rw [Decision.settledTable_append, h.decisions]
      exact List.prefix_append _ _
    exact
      { title := h.title
        overview := fun _ => ho _ rfl
        architecture := fun _ => ha _ rfl
        components := h.components
        decisions := hd
        adrs := h.adrs
        requirements := h.requirements }
  | component c =>
    have hc : d.components <+:
        (d.components ++ [Component.named c]).map Component.settled := by
      rw [List.map_append, h.components]
      exact List.prefix_append _ _
    exact
      { title := h.title
        overview := fun _ => ho _ rfl
        architecture := fun _ => ha _ rfl
        components := hc
        decisions := h.decisions
        adrs := h.adrs
        requirements := h.requirements }

/-- A document as it is read back after a change at some time. -/
def revised (d : Document) (u : Update) (i : Instant) : Document :=
  read d.task { u.apply d with updated := some i }.render

theorem headless_apply (h : d.task.Headless) (u : Update) : (u.apply d).task.Headless := by
  cases u <;> exact h

/-- A change that keeps to its section loses nothing of a stable document, and leaves it stable. -/
theorem Stable.revised (h : d.Stable) (ht : d.task.Headless) (hu : u.Safe) (i : Instant) :
    (d.revised u i).Stable ∧ u.Frames d (d.revised u i) := by
  have hs := (h.sound_apply hu).updated (some i)
  have hr : d.revised u i = { u.apply d with updated := some i }.reread := by
    have htask : { u.apply d with updated := some i }.task = d.task := by cases u <;> rfl
    rw [Document.revised, ← htask]
    exact hs.read_render (headless_apply ht u)
  rw [hr]
  refine ⟨hs.stable_reread, ?_⟩
  have hf := h.frames u
  exact { hf with }

/-- Whether a kind of document of a task is kept: changes of a class leave a document of that kind,
and so does populating it. -/
structure Preserved (task : Text) (ok : Update → Prop) (p : Document → Prop) : Prop where
  revised : ∀ {d u}, d.task = task → p d → ok u → ∀ i, p (d.revised u i)
  merged : ∀ {d ds}, d.task = task → p d → (∀ x ∈ ds, x.Plain) → ∀ requirements adrs i,
    p (.read task { d.merged requirements ds adrs with updated := some i }.render)

theorem Preserved.mono {task : Text} {ok ok' : Update → Prop} {p : Document → Prop}
    (h : Preserved task ok p) (hok : ∀ u, ok' u → ok u) : Preserved task ok' p where
  revised he hd hu i := h.revised he hd (hok _ hu) i
  merged he hd hp requirements adrs i := h.merged he hd hp requirements adrs i

/-- Changes that keep to their sections keep documents stable. -/
theorem preserved_stable {task : Text} (ht : task.Headless) :
    Preserved task Update.Safe Stable where
  revised he hd hu i := (hd.revised (he.symm ▸ ht) hu i).1
  merged := by
    rintro d ds rfl hd hp requirements adrs i
    exact (hd.sound_merged requirements adrs hp).stable_read ht (some i)

end Document

end DesignRecords
