import DesignRecords.Proofs.Document.Stable

namespace DesignRecords

namespace Section

variable {name : Text} {ss : List Section}

/-- The first section with a name hides all that follow. -/
theorem bodyOf_append_of_exists (ts : List Section)
    (h : ∃ s ∈ ss, Text.sameIgnoringCase s.header name = true) :
    bodyOf (ss ++ ts) name = bodyOf ss name := by
  have hs : (ss.find? fun s => Text.sameIgnoringCase s.header name).isSome = true :=
    List.find?_isSome.mpr h
  obtain ⟨s, hs⟩ := Option.isSome_iff_exists.mp hs
  rw [bodyOf, bodyOf, List.find?_append, hs]
  rfl

end Section

namespace Document

open Section

variable {d e : Document} {k : Heading} {t t' : Text}

/-- A document of which only one section is left. -/
def only (d : Document) : Heading → Document
  | .overview => { scaffold [] with overview := d.overview }
  | .architecture => { scaffold [] with architecture := d.architecture }
  | .components => { scaffold [] with components := d.components }
  | .decisions => { scaffold [] with decisions := d.decisions }
  | .adrs => { scaffold [] with adrs := d.adrs }
  | .requirements => { scaffold [] with requirements := d.requirements }

theorem only_read {a b : Text} (h : bodyOf (split a).2 k.text = bodyOf (split b).2 k.text) :
    (read t a).only k = (read t' b).only k := by
  cases k <;> simp only [only, read, h]

theorem bodyOf_of_stray_overview (hk : k ≠ .overview)
    (h : ∃ s ∈ (opened d.overviewBody).2, Text.sameIgnoringCase s.header k.text = true) :
    bodyOf (ofBlocks d.blocks) k.text = bodyOf (opened d.overviewBody).2 k.text := by
  have hh : Text.sameIgnoringCase
      (ofLines (headingLine .overview) (opened d.overviewBody).1).header k.text = false := by
    rw [header_ofLines, same_heading, decide_eq_false hk.symm]
  rw [ofBlocks_blocks, List.cons_append, bodyOf_cons_of_not hh, bodyOf_append_of_exists _ h]

theorem bodyOf_of_stray_architecture (hq : Quiet d.overviewBody) (ho : k ≠ .overview)
    (ha : k ≠ .architecture)
    (h : ∃ s ∈ (opened d.architectureBody).2, Text.sameIgnoringCase s.header k.text = true) :
    bodyOf (ofBlocks d.blocks) k.text = bodyOf (opened d.architectureBody).2 k.text := by
  have hh : ∀ h' ls, k ≠ h' →
      Text.sameIgnoringCase (ofLines (headingLine h') ls).header k.text = false := by
    intro h' ls hk
    rw [header_ofLines, same_heading, decide_eq_false hk.symm]
  rw [ofBlocks_blocks, opened_of_quiet hq, List.singleton_append, bodyOf_cons_of_not (hh _ _ ho),
    List.cons_append, bodyOf_cons_of_not (hh _ _ ha), bodyOf_append_of_exists _ h]

/-- A section that a header in the overview hides is read alike in all documents with that
overview. -/
theorem only_read_of_stray_overview (hd : d.task.Headless) (he : e.task.Headless)
    (ho : e.overview = d.overview) (hk : k ≠ .overview)
    (h : ∃ s ∈ (opened (overviewLinesOf d.overview)).2,
      Text.sameIgnoringCase s.header k.text = true) :
    (read t e.render).only k = (read t' d.render).only k := by
  have hb : e.overviewBody = d.overviewBody := congrArg overviewLinesOf ho
  apply only_read
  rw [split_render (isHeader_frontLines hd), split_render (isHeader_frontLines he)]
  rw [bodyOf_of_stray_overview hk h, bodyOf_of_stray_overview (d := e) hk (hb ▸ h), hb]

/-- A section that a header in the diagram hides is read alike in all documents with that
diagram. -/
theorem only_read_of_stray_architecture (hd : d.task.Headless) (he : e.task.Headless)
    (hqd : Quiet (overviewLinesOf d.overview)) (hqe : Quiet (overviewLinesOf e.overview))
    (h' : e.architecture = d.architecture) (ho : k ≠ .overview) (ha : k ≠ .architecture)
    (h : ∃ s ∈ (opened (architectureLinesOf d.architecture)).2,
      Text.sameIgnoringCase s.header k.text = true) :
    (read t e.render).only k = (read t' d.render).only k := by
  have hb : e.architectureBody = d.architectureBody := congrArg architectureLinesOf h'
  apply only_read
  rw [split_render (isHeader_frontLines hd), split_render (isHeader_frontLines he)]
  rw [bodyOf_of_stray_architecture hqd ho ha h,
    bodyOf_of_stray_architecture (d := e) hqe ho ha (hb ▸ h), hb]

end Document

theorem Update.Frames.only {u : Update} {d d' : Document} {k : Heading} (h : u.Frames d d')
    (hk : k ≠ u.heading) : d'.only k = d.only k := by
  have hc := h.components
  have hd := h.decisions
  cases k with
  | overview => simp only [Document.only, h.overview hk.symm]
  | architecture => simp only [Document.only, h.architecture hk.symm]
  | components =>
    rw [if_neg hk.symm] at hc
    simp only [Document.only, hc]
  | decisions =>
    rw [if_neg hk.symm] at hd
    simp only [Document.only, hd]
  | adrs => simp only [Document.only, h.adrs]
  | requirements => simp only [Document.only, h.requirements]

namespace Document

open Section

variable {d e : Document} {u : Update} {i : Instant}

theorem exists_stray_or_ne {written : Text → List Text} {reread : Text → Text}
    {behind : List Heading} {t : Text} (h : ¬ Contained written reread behind t) :
    (∃ k ∈ behind, ∃ s ∈ (opened (written t)).2, Text.sameIgnoringCase s.header k.text = true) ∨
      reread (reread t) ≠ reread t := by
  by_contra hn
  obtain ⟨hs, hr⟩ := not_or.mp hn
  refine h ⟨fun s hm k hk => ?_, not_not.mp hr⟩
  rw [← Bool.not_eq_true]
  exact fun hh => hs ⟨k, hk, s, hm, hh⟩

theorem ne_overview_of_behind {k : Heading} (h : k ∈ behindOverview) : k ≠ .overview := by
  rintro rfl
  exact absurd h (by decide)

theorem ne_of_behindArchitecture {k : Heading} (h : k ∈ behindArchitecture) :
    k ∈ behindOverview ∧ k ≠ .architecture :=
  ⟨List.mem_cons_of_mem _ h, by rintro rfl; exact absurd h (by decide)⟩

theorem isHeader_frontLines_apply (h : d.task.Headless) (u : Update) (o : Option Instant) :
    ∀ l ∈ { u.apply d with updated := o }.frontLines, isHeader l = false :=
  isHeader_frontLines (headless_apply h u)

theorem overview_revised (h : d.task.Headless) {t : Text} (ht : (u.apply d).overview = t) :
    (d.revised u i).overview = rereadOverview t := by
  rw [revised, overview_read (isHeader_frontLines_apply h u (some i)), ht]

theorem architecture_revised (h : d.task.Headless) {s t : Text} (hs : (u.apply d).overview = s)
    (hq : Quiet (overviewLinesOf s)) (ht : (u.apply d).architecture = t) :
    (d.revised u i).architecture = rereadArchitecture t := by
  subst hs
  have ho : opened (u.apply d).overviewBody = ((u.apply d).overviewBody, []) := opened_of_quiet hq
  have hn : ∀ s ∈ (opened (u.apply d).overviewBody).2,
      Text.sameIgnoringCase s.header (Heading.text .architecture) = false := by simp [ho]
  rw [revised, architecture_read (isHeader_frontLines_apply h u (some i)) hn, ht]

/-- A change that loses nothing of two documents without a section in common, nor has anything lost
by the next change, keeps to its section. -/
theorem safe_of_frames {d' e' : Document} (hd : d.task.Headless) (he : e.task.Headless)
    (hqd : Quiet (overviewLinesOf d.overview)) (hqe : Quiet (overviewLinesOf e.overview))
    (hne : ∀ k ∈ behindOverview, e.only k ≠ d.only k) (hd' : d.revised u i = d')
    (he' : e.revised u i = e') (fd : u.Frames d d') (fe : u.Frames e e') (c : Text)
    (fc : (Update.component c).Frames d' (d'.revised (.component c) i)) : u.Safe := by
  have hhead : d'.task.Headless := by
    rw [← hd', revised, task_read]
    exact hd
  by_contra hu
  cases u with
  | overview t =>
    rcases exists_stray_or_ne hu with ⟨k, hk, hs⟩ | hr
    · have hn := ne_overview_of_behind hk
      have hr : e'.only k = d'.only k := by
        rw [← hd', ← he']
        exact only_read_of_stray_overview hd he rfl hn hs
      exact hne k hk ((fe.only hn).symm.trans (hr.trans (fd.only hn)))
    · have hn : (Update.component c).heading ≠ .overview := by simp [Update.heading]
      have ho : d'.overview = rereadOverview t := by
        rw [← hd']
        exact overview_revised hd rfl
      have hc : (d'.revised (.component c) i).overview = rereadOverview d'.overview :=
        overview_revised hhead rfl
      rw [fc.overview hn, ho] at hc
      exact hr hc.symm
  | architecture t =>
    rcases exists_stray_or_ne hu with ⟨k, hk, hs⟩ | hr
    · obtain ⟨hk, hn⟩ := ne_of_behindArchitecture hk
      have hr : e'.only k = d'.only k := by
        rw [← hd', ← he']
        exact only_read_of_stray_architecture hd he hqd hqe rfl (ne_overview_of_behind hk) hn hs
      exact hne k hk ((fe.only hn).symm.trans (hr.trans (fd.only hn)))
    · have hn : (Update.component c).heading ≠ .architecture := by simp [Update.heading]
      have hm : (Update.architecture t).heading ≠ .overview := by simp [Update.heading]
      have ha : d'.architecture = rereadArchitecture t := by
        rw [← hd']
        exact @architecture_revised d (.architecture t) i hd d.overview t rfl hqd rfl
      have hq : Quiet (overviewLinesOf d'.overview) := (fd.overview hm).symm ▸ hqd
      have hc : (d'.revised (.component c) i).architecture = rereadArchitecture d'.architecture :=
        architecture_revised hhead rfl hq rfl
      rw [fc.architecture hn, ha] at hc
      exact hr hc.symm
  | decision t => exact hu trivial
  | component t => exact hu trivial

end Document

end DesignRecords
