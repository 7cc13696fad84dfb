import DesignRecords.Proofs.Document.Rewritten

namespace DesignRecords

variable {i j : Instant} {d e m : Document} {reqs adrs links : List Text} {ds : List Decision}
  {t : Text}

theorem Text.trim_flat (t : Text) : t.flat.trim = t.flat := trim_trim

theorem Text.neat_of_flat (h : t.flat = t) (hn : t ≠ []) : t.Neat := by
  refine ⟨hn, ?_⟩
  rw [← h, trim_flat]

theorem Text.neat_of_mem_settledList {items : List Text} (h : settledList items = items) :
    ∀ item ∈ items, item.Neat := by
  intro item hi
  rw [← h] at hi
  obtain ⟨hm, hn⟩ := List.mem_filter.mp hi
  obtain ⟨x, -, rfl⟩ := List.mem_map.mp hm
  exact neat_of_flat (flat_flat x) (by simpa using hn)

theorem Decision.neat_of_mem_settledTable (h : settledTable ds = ds) :
    ∀ x ∈ ds, x.decision.Neat ∧ x.Tidy := by
  intro x hx
  rw [← h] at hx
  obtain ⟨hm, hn⟩ := List.mem_filter.mp hx
  obtain ⟨y, -, rfl⟩ := List.mem_map.mp hm
  exact ⟨Text.neat_of_flat (Text.flat_flat _) (by simpa using hn), Text.trim_flat _,
    Text.trim_flat _⟩

section

variable {α : Type} {old xs : List α}

/-- Where the known and the new entries say something, so do those that are known already. -/
theorem solid_of_newBy (text : α → Text) (hold : ∀ y ∈ old, (text y).blank = false)
    (hnew : ∀ y ∈ newBy (fun x => (text x).words) (old.map fun x => (text x).words) xs,
      (text y).blank = false) : ∀ x ∈ xs, (text x).blank = false := by
  intro x hx
  obtain ⟨y, hy, he⟩ := words_mem_mergedBy (fun x => (text x).words) old hx
  have hs : (text y).blank = false := by
    rcases List.mem_append.mp hy with hy | hy
    · exact hold y hy
    · exact hnew y hy
  rw [Bool.eq_false_iff, Ne, ← Text.words_eq_nil, ← he, Text.words_eq_nil, hs]
  simp

end

namespace Document

/-- The contents of the entries that merging adds to a document. -/
def newContents (d : Document) (reqs : List Text) (ds : List Decision) : List Text :=
  newBy Text.words (d.requirements.map Text.words) reqs ++
    (newBy (fun x => x.decision.words) (d.decisions.map fun x => x.decision.words) ds).map
      (·.decision)

/-- Whether a document is another one as it is read back, the time of the last change aside, and
that one keeps its title and all that stands before its decisions. -/
structure Returned (m e : Document) : Prop where
  task : e.task = m.task
  title : e.title = m.title
  overview : e.overview = m.overview
  architecture : e.architecture = m.architecture
  components : e.components = m.components
  decisions : e.decisions = Decision.settledTable m.decisions
  adrs : e.adrs = Text.settledList m.adrs
  requirements : e.requirements = Text.settledList m.requirements

theorem Stable.returned_merged (h : d.Stable) (reqs adrs : List Text) (ds : List Decision)
    (i : Instant) :
    (d.merged reqs ds adrs).Returned { d.merged reqs ds adrs with updated := some i }.reread where
  task := rfl
  title := h.title
  overview := by
    rw [overview_reread]
    exact h.overview
  architecture := by
    rw [architecture_reread]
    exact h.architecture
  components := h.components
  decisions := rfl
  adrs := rfl
  requirements := rfl

theorem Returned.titleLine (h : m.Returned e) : e.titleLine = m.titleLine := by
  rw [Document.titleLine, writtenTitle, h.title, h.task, Document.titleLine, writtenTitle]

theorem Returned.taskLine (h : m.Returned e) : e.taskLine = m.taskLine := by
  rw [Document.taskLine, h.task, Document.taskLine]

/-- The lines of a document below its head, of which those of the lists stand last. -/
theorem Returned.exists_front (h : m.Returned e) : ∃ front between,
    m.linesBelowHead = front ++ m.decisions.map Decision.row ++ between ++ Bullet.lines m.adrs ++
      [] :: (headerLines .requirements ++ Bullet.lines m.requirements) ∧
    e.linesBelowHead = front ++ e.decisions.map Decision.row ++ between ++ Bullet.lines e.adrs ++
      [] :: (headerLines .requirements ++ Bullet.lines e.requirements) := by
  refine ⟨[] :: (m.overviewLines ++ m.architectureLines ++ m.componentLines ++
    (headerLines .decisions ++ ["| Decision | Rationale | Source | Date |".toList,
      "|----------|-----------|--------|------|".toList])), [] :: headerLines .adrs, ?_, ?_⟩
  · simp [linesBelowHead, decisionLines, adrLines, requirementLines]
  · simp [linesBelowHead, decisionLines, adrLines, requirementLines, overviewLines,
      architectureLines, componentLines, h.overview, h.architecture, h.components]

/-- A document is written again as it was just where its decisions and requirements have no blanks
around them. -/
theorem Returned.sameButTime_iff (h : m.Returned e) (ht : ∀ x ∈ m.decisions, x.Tidy)
    (ha : ∀ a ∈ m.adrs, a.Neat) (hr : ∀ r ∈ m.requirements, r.blank = false) :
    SameButTime i j { m with updated := some i }.render { e with updated := some j }.render ↔
      (∀ r ∈ m.requirements, r.Neat) ∧ ∀ x ∈ m.decisions, x.decision.Neat := by
  obtain ⟨front, between, hm, he⟩ := h.exists_front
  rw [h.decisions, h.adrs, h.requirements, Bullet.lines_settledList ha] at he
  constructor
  · intro hs
    -- Blanks are only ever cut, so where the size is the same none were there.
    have hsize := size_of_sameButTime h.titleLine h.taskLine hs
    obtain ⟨hdle, hdeq⟩ := Decision.size_rows_settledTable ht
    obtain ⟨hrle, hreq⟩ := Bullet.size_lines_settledList hr
    rw [hm, he] at hsize
    simp only [Text.size_append, Text.size_cons] at hsize
    exact ⟨hreq (by omega), hdeq (by omega)⟩
  · rintro ⟨hrn, hdn⟩
    refine sameButTime_of_lines h.titleLine h.taskLine ?_
    rw [hm, he, Bullet.lines_settledList hrn, Decision.rows_settledTable ht hdn]

/-- Merging the same entries once more adds nothing just where each of them says something. -/
theorem Returned.additions_eq_zero_iff (h : (d.merged reqs ds adrs).Returned e)
    (ha : ∀ a ∈ adrs, a.blank = false) (hl : links ⊆ adrs) :
    Additions.between e (e.merged reqs ds links) = ⟨0, 0, 0⟩ ↔
      (∀ r ∈ reqs, r.blank = false) ∧ ∀ x ∈ ds, x.decision.blank = false := by
  have hreqs := @newBy_settledBy_eq_nil _ id Text.flat d.requirements reqs fun _ => rfl
  have hds := @newBy_settledBy_eq_nil _ (fun x : Decision => x.decision) Decision.settled
    d.decisions ds fun _ => rfl
  have hadrs := (@newBy_settledBy_eq_nil _ id Text.flat d.adrs adrs fun _ => rfl).mpr ha
  have hlinks : newBy Text.words (e.adrs.map Text.words) links = [] := by
    rw [h.adrs]
    exact newBy_eq_nil.mpr fun a hm => newBy_eq_nil.mp hadrs a (hl hm)
  have hlen : ∀ {α : Type} (words : α → List Text) (old new : List α),
      (mergedBy words old new).length - old.length = (newBy words (old.map words) new).length := by
    intro α words old new
    rw [mergedBy, List.length_append, Nat.add_sub_cancel_left]
  simp only [Additions.between, merged, hlen, Additions.mk.injEq, List.length_eq_zero_iff, hlinks,
    and_true]
  rw [h.requirements, h.decisions]
  exact and_congr hreqs hds

theorem merged_of_additions (h : Additions.between e (e.merged reqs ds links) = ⟨0, 0, 0⟩) :
    e.merged reqs ds links = e := by
  have hnil : ∀ {α : Type} (words : α → List Text) (old new : List α),
      (mergedBy words old new).length - old.length = 0 → mergedBy words old new = old := by
    intro α words old new hl
    rw [mergedBy, List.length_append, Nat.add_sub_cancel_left, List.length_eq_zero_iff] at hl
    rw [mergedBy, hl, List.append_nil]
  simp only [Additions.between, merged, Additions.mk.injEq] at h
  rw [merged, hnil _ _ _ h.1, hnil _ _ _ h.2.1, hnil _ _ _ h.2.2]

/-- Merging the same entries into a stable document once more changes nothing but the time of the
last change just where the entries that were new say something and have no blanks around them. -/
theorem Stable.merged_again_iff (h : d.Stable) (hds : ∀ x ∈ ds, x.Tidy)
    (ha : ∀ a ∈ adrs, a.Neat) (hl : links ⊆ adrs)
    (he : e = { d.merged reqs ds adrs with updated := some i }.reread) :
    (Additions.between e (e.merged reqs ds links) = ⟨0, 0, 0⟩ ∧
      SameButTime i j { d.merged reqs ds adrs with updated := some i }.render
        { e.merged reqs ds links with updated := some j }.render) ↔
      ∀ t ∈ d.newContents reqs ds, t.Neat := by
  have hret : (d.merged reqs ds adrs).Returned e := he ▸ h.returned_merged reqs adrs ds i
  have hzero := hret.additions_eq_zero_iff (fun a hm => (ha a hm).solid) hl
  have hold := Text.neat_of_mem_settledList h.requirements
  have htable := Decision.neat_of_mem_settledTable h.decisions
  have hlinks : ∀ a ∈ (d.merged reqs ds adrs).adrs, a.Neat :=
    List.forall_mem_append.mpr ⟨Text.neat_of_mem_settledList h.adrs,
      fun a hm => ha a (mem_of_mem_newBy hm)⟩
  have htidy : ∀ x ∈ (d.merged reqs ds adrs).decisions, x.Tidy :=
    List.forall_mem_append.mpr ⟨fun x hm => (htable x hm).2,
      fun x hm => hds x (mem_of_mem_newBy hm)⟩
  simp only [newContents, List.forall_mem_append, List.forall_mem_map]
  constructor
  · rintro ⟨hadd, hs⟩
    rw [merged_of_additions hadd] at hs
    have hsolid : ∀ r ∈ (d.merged reqs ds adrs).requirements, r.blank = false :=
      List.forall_mem_append.mpr ⟨fun r hm => (hold r hm).solid,
        fun r hm => (hzero.mp hadd).1 r (mem_of_mem_newBy hm)⟩
    obtain ⟨hr, hd⟩ := (hret.sameButTime_iff htidy hlinks hsolid).mp hs
    exact ⟨fun r hm => hr r (List.mem_append_right _ hm),
      fun x hm => hd x (List.mem_append_right _ hm)⟩
  · rintro ⟨hr, hd⟩
    have hadd := hzero.mpr
      ⟨solid_of_newBy id (fun y hy => (hold y hy).solid) fun y hy => (hr y hy).solid,
        solid_of_newBy (fun x : Decision => x.decision)
          (fun y hy => (htable y hy).1.solid) fun y hy => (hd y hy).solid⟩
    refine ⟨hadd, ?_⟩
    have hneat : ∀ r ∈ (d.merged reqs ds adrs).requirements, r.Neat :=
      List.forall_mem_append.mpr ⟨hold, hr⟩
    rw [merged_of_additions hadd]
    exact (hret.sameButTime_iff htidy hlinks fun r hm => (hneat r hm).solid).mpr
      ⟨hneat, List.forall_mem_append.mpr ⟨fun x hm => (htable x hm).1, hd⟩⟩

end Document

end DesignRecords
