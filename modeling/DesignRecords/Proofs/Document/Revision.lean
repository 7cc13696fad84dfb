import DesignRecords.Document.Update
import DesignRecords.Proofs.Document.RoundTrip
import DesignRecords.Proofs.Document.Unheaded

namespace DesignRecords

variable {d : Document} {u : Update} {i : Instant}

namespace Update

/-- What a change makes of a document that is written and read again. -/
def settle (d : Document) : Update → Document
  | overview c => { d with overview := c.settledOverview }
  | architecture c => { d with architecture := c.settledArchitecture }
  | decision c =>
    if c.blank then d else { d with decisions := d.decisions ++ [Decision.stated c.flat] }
  | component c => { d with components := d.components ++ [Component.named c.flat] }

/-- Whether a change brings in no carriage return and no line that starts a section. -/
def Unheaded : Update → Prop
  | overview c => c.Unheaded
  | architecture c => c.Unheaded
  | _ => True

instance : Decidable u.Unheaded :=
  match u with
  | overview c => inferInstanceAs (Decidable c.Unheaded)
  | architecture c => inferInstanceAs (Decidable c.Unheaded)
  | decision _ => .isTrue trivial
  | component _ => .isTrue trivial

/-- Whether a change leaves the overview as it is. -/
def keepsOverview : Update → Bool
  | overview _ => false
  | _ => true

theorem task_settle (u : Update) (d : Document) : (u.settle d).task = d.task := by
  cases u with
  | decision c =>
    simp only [settle]
    split <;> rfl
  | _ => rfl

end Update

namespace Document

/-- The document as it is read when it was last changed at some time. -/
def dated (d : Document) (i : Instant) : Document := { d with updated := some i.wholeSecond }

/-- Whether a document is as changes of its sections leave it: settled, and without headers in its
texts, but for one that the overview may start with. -/
structure Tidy (d : Document) : Prop where
  task : d.task.blank = false
  trimmed : d.task.trim = d.task
  single : d.task.Single
  title : d.title = d.task
  overview : d.overview.settledOverview = d.overview
  returns : '\r' ∉ d.overview
  overviewUnheaded : Section.isHeader d.overview = false → d.overview.Unheaded
  architecture : d.architecture.settledArchitecture = d.architecture
  architectureUnheaded : d.architecture.Unheaded
  decisions : ∀ x ∈ d.decisions, ∃ c : Text, c.blank = false ∧ x = .stated c.flat
  components : ∀ x ∈ d.components, ∃ c : Text, x = .named c.flat
  adrs : d.adrs = []
  requirements : d.requirements = []

theorem tidy_scaffold {task : Text} (hb : task.blank = false) (ht : task.trim = task)
    (hs : task.Single) : (scaffold task).Tidy where
  task := hb
  trimmed := ht
  single := hs
  title := rfl
  overview := rfl
  returns := Text.unheaded_overviewPlaceholder.returns
  overviewUnheaded _ := Text.unheaded_overviewPlaceholder
  architecture := rfl
  architectureUnheaded := Text.unheaded_defaultArchitecture
  decisions := by simp [scaffold]
  components := by simp [scaffold]
  adrs := rfl
  requirements := rfl

theorem Tidy.dated (h : d.Tidy) (i : Instant) : (d.dated i).Tidy := { h with }

theorem Tidy.settle (h : d.Tidy) (hu : u.Unheaded) : (u.settle d).Tidy := by
  cases u with
  | overview c =>
    exact { h with
      overview := c.settledOverview_settledOverview
      returns := Text.Unheaded.not_return_mem_settledOverview hu
      overviewUnheaded := Text.Unheaded.settledOverview hu }
  | architecture c =>
    exact { h with
      architecture := c.settledArchitecture_settledArchitecture
      architectureUnheaded := Text.Unheaded.settledArchitecture hu }
  | decision c =>
    simp only [Update.settle]
    split
    · exact h
    next hb =>
      refine { h with decisions := fun x hx => ?_ }
      rcases List.mem_append.mp hx with hx | hx
      · exact h.decisions x hx
      · exact ⟨c, by simpa using hb, List.mem_singleton.mp hx⟩
  | component c =>
    refine { h with components := fun x hx => ?_ }
    rcases List.mem_append.mp hx with hx | hx
    · exact h.components x hx
    · exact ⟨c, List.mem_singleton.mp hx⟩

theorem render_dated (d : Document) (i : Instant) :
    (d.dated i).render = { d with updated := some i }.render := by
  have hh : (d.dated i).headLines = { d with updated := some i }.headLines := by
    simp only [headLines, dated, Option.map_some, Instant.text_wholeSecond]
  simp only [render, parts, hh]
  rfl

theorem plain_stated (t : Text) : (Decision.stated t).Plain :=
  ⟨fun _ h => (by cases h), fun _ => (by decide : ¬ Label.candidate <:+ Text.flat [])⟩

theorem Tidy.plain_of_decision (h : d.Tidy) : ∀ x ∈ d.decisions, x.Plain := by
  intro x hx
  obtain ⟨c, -, rfl⟩ := h.decisions x hx
  exact plain_stated _

theorem Tidy.plain_dated (h : d.Tidy) (ho : d.overview.Unheaded) (hi : i.Shown) :
    (d.dated i).Plain where
  task := h.task
  single := h.single
  overview := ho.returns
  architecture := h.architectureUnheaded.returns
  quiet := ho.headers
  diagram := Or.inl h.architectureUnheaded.headers
  decisions := h.plain_of_decision
  updated := by
    intro j hj
    cases hj
    exact hi.plain

/-- A tidy document with one section changed is plain, unless its overview starts with a header and
stays. -/
theorem Tidy.plain_apply (h : d.Tidy) (hu : u.Unheaded) (hi : i.Shown)
    (ho : u.keepsOverview = true → Section.isHeader d.overview = false) :
    ((u.apply d).dated i).Plain := by
  cases u with
  | overview c =>
    have hc : (overviewPlaceholder : Text).Unheaded := Text.unheaded_overviewPlaceholder
    have hd : ({ d with overview := overviewPlaceholder }.dated i).Plain :=
      Tidy.plain_dated { h with
        overview := rfl
        returns := hc.returns
        overviewUnheaded := fun _ => hc } hc hi
    exact { hd with overview := hu.returns, quiet := hu.headers }
  | architecture c =>
    have hd := h.plain_dated (h.overviewUnheaded (ho rfl)) hi
    exact { hd with architecture := hu.returns, diagram := Or.inl hu.headers }
  | decision c =>
    have hd := h.plain_dated (h.overviewUnheaded (ho rfl)) hi
    refine { hd with decisions := fun x hx => ?_ }
    rcases List.mem_append.mp hx with hx | hx
    · exact hd.decisions x hx
    · rw [List.mem_singleton.mp hx]
      exact plain_stated c
  | component c => exact { h.plain_dated (h.overviewUnheaded (ho rfl)) hi with }

theorem Tidy.settledTable (h : d.Tidy) : Decision.settledTable d.decisions = d.decisions := by
  apply Decision.settledTable_eq_self
  intro x hx
  obtain ⟨c, hc, rfl⟩ := h.decisions x hx
  refine ⟨?_, by simpa [Decision.stated, Text.flat_eq_nil] using hc⟩
  simp [Decision.settled, Decision.stated, Text.flat_flat]
  rfl

theorem Tidy.settled_components (h : d.Tidy) :
    d.components.map Component.settled = d.components := by
  have hs : ∀ x ∈ d.components, x.settled = x := by
    intro x hx
    obtain ⟨c, rfl⟩ := h.components x hx
    simp [Component.settled, Component.named, Component.settledNames, Text.flat_flat]
    rfl
  rw [List.map_congr_left hs, List.map_id']

theorem Tidy.settled (h : d.Tidy) : d.settled = d := by
  have ht : (if d.title.blank then d.task.trim else d.title.flat) = d.title := by
    rw [h.title, h.task, flat_of_single h.single, h.trimmed]
    rfl
  have ha : Text.settledList d.adrs = d.adrs := by rw [h.adrs]; rfl
  have hr : Text.settledList d.requirements = d.requirements := by rw [h.requirements]; rfl
  rw [Document.settled, ht, h.overview, h.architecture, h.settled_components, h.settledTable, ha,
    hr]

theorem settledTable_stated (c : Text) :
    Decision.settledTable [Decision.stated c] =
      if c.blank then [] else [Decision.stated c.flat] := by
  have hs : (Decision.stated c).settled = .stated c.flat := rfl
  cases hc : c.blank with
  | true =>
    have hn : (Decision.stated c.flat).decision = [] := Text.flat_eq_nil.mpr hc
    simp [Decision.settledTable, hs, hn]
  | false =>
    have hn : (Decision.stated c.flat).decision ≠ [] := by
      simp [Decision.stated, Text.flat_eq_nil, hc]
    simp [Decision.settledTable, hs, hn]

/-- Settling a tidy document after a change is what the change makes of it. -/
theorem Tidy.settled_apply (h : d.Tidy) (u : Update) (i : Instant) :
    ((u.apply d).dated i).settled = (u.settle d).dated i := by
  cases u with
  | overview c =>
    change { d.settled with overview := c.settledOverview, updated := some i.wholeSecond } = _
    rw [h.settled]
    rfl
  | architecture c =>
    change { d.settled with
      architecture := c.settledArchitecture
      updated := some i.wholeSecond } = _
    rw [h.settled]
    rfl
  | decision c =>
    have hd : Decision.settledTable (d.decisions ++ [Decision.stated c]) =
        d.decisions ++ if c.blank then [] else [Decision.stated c.flat] := by
      rw [Decision.settledTable_append, settledTable_stated, h.settledTable]
    change { d.settled with
      decisions := Decision.settledTable (d.decisions ++ [Decision.stated c])
      updated := some i.wholeSecond } = _
    rw [h.settled, hd]
    cases hc : c.blank <;> simp [Update.settle, hc, Document.dated]
  | component c =>
    have hd : (d.components ++ [Component.named c]).map Component.settled =
        d.components ++ [Component.named c.flat] := by
      rw [List.map_append, h.settled_components]
      rfl
    change { d.settled with
      components := (d.components ++ [Component.named c]).map Component.settled
      updated := some i.wholeSecond } = _
    rw [h.settled, hd]
    rfl

/-- A change of a tidy document is written and read back as what it makes of the document. -/
theorem Tidy.read_render (h : d.Tidy) (hu : u.Unheaded) (hi : i.Shown)
    (ho : u.keepsOverview = true → Section.isHeader d.overview = false) :
    read d.task { u.apply d with updated := some i }.render = (u.settle d).dated i := by
  have ht : ((u.apply d).dated i).task = d.task := by cases u <;> rfl
  rw [← render_dated, ← h.settled_apply u i, ← (h.plain_apply hu hi ho).legible.read_render, ht]

theorem Tidy.read_render_dated (h : d.Tidy) (ho : Section.isHeader d.overview = false)
    (hi : i.Shown) : read d.task { d with updated := some i }.render = d.dated i := by
  have hp := h.plain_dated (h.overviewUnheaded ho) hi
  have hr : read d.task (d.dated i).render = (d.dated i).settled := hp.legible.read_render
  rw [← render_dated, hr, (h.dated i).settled]

theorem opened_header {l : Text} (hl : Section.isHeader l = true) (ls : List Text) :
    (Section.opened ([] :: l :: ls)).1 = [[]] := by
  have hn : Section.isHeader [] = false := rfl
  have hm : Section.marked .opening ([] :: l :: ls) =
      [(false, [])] ++ (true, l) :: Section.marked .opening ls := by
    rw [Section.marked_cons, Section.marked_cons]
    simp [Section.Place.marks, Section.Place.after, hl, hn]
  rw [Section.opened, hm, Section.grouped_append _ _ rfl]
  rfl

/-- An overview that starts with a header is lost when it is written and read back. -/
theorem rereadOverview_of_header {t : Text} (hf : t.Firm) (hh : Section.isHeader t = true) :
    rereadOverview t = [] := by
  have hb : t.blank = false := Section.not_blank_of_isHeader hh
  obtain ⟨x, xs, hx, hxh⟩ := Text.exists_header hh
  have hl : overviewLinesOf t = [] :: x :: (xs ++ [[]]) := by
    rw [overviewLinesOf, orIfBlank_of_not hb, hf, hx]
    rfl
  rw [rereadOverview, hl, opened_header hxh]
  rfl

/-- A change that leaves an overview which starts with a header loses it. -/
theorem Tidy.read_render_ne (h : d.Tidy) (hu : u.keepsOverview = true)
    (ho : Section.isHeader d.overview = true) (i j : Instant) :
    read d.task { u.apply d with updated := some i }.render ≠ (u.settle d).dated j := by
  have hkeep : (u.apply d).overview = d.overview ∧ (u.apply d).task = d.task := by
    cases u with
    | overview c => cases hu
    | _ => exact ⟨rfl, rfl⟩
  have hsettled : (u.settle d).overview = d.overview := by
    cases u with
    | overview c => cases hu
    | decision c =>
      simp only [Update.settle]
      split <;> rfl
    | _ => rfl
  intro he
  have hf : ∀ l ∈ { u.apply d with updated := some i }.frontLines, Section.isHeader l = false := by
    have hs : { u.apply d with updated := some i }.task.Single := hkeep.2 ▸ h.single
    rw [frontLines_of_single hs]
    exact fun _ => isHeader_headLines
  have hr : (read d.task { u.apply d with updated := some i }.render).overview =
      rereadOverview (u.apply d).overview := overview_read hf d.task
  rw [he, hkeep.1, rereadOverview_of_header (Text.firm_of_no_return h.returns) ho] at hr
  have hn : d.overview = [] := hsettled.symm.trans hr
  rw [hn] at ho
  cases ho

end Document

end DesignRecords
