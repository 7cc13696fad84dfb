import DesignRecords.Proofs.Calendar.Reading
import DesignRecords.Proofs.Document.Entries
import DesignRecords.Proofs.Document.Fixed

namespace DesignRecords

namespace Document

open Section

variable {d : Document} {a task t : Text}

theorem orIfBlank_orIfBlank (t other : Text) :
    orIfBlank (orIfBlank t other) other = orIfBlank t other := by
  cases hb : t.blank with
  | true =>
    have ho : orIfBlank t other = other := by rw [orIfBlank, if_pos hb]
    rw [ho, orIfBlank, ite_self]
  | false => rw [orIfBlank_of_not hb, orIfBlank_of_not hb]

/-- A text as it is written: a document of the task is read from it, and rendered. -/
def normalised (task t : Text) : Text := (read task t).render

/-- Whether no header stands at the start of the overview, and none at that of the diagram but where
the block of code that the diagram is written in hides it. -/
structure Covered (d : Document) : Prop where
  overview : isHeader d.overview = false
  architecture : isHeader d.architecture = true →
    (fencedLines? (d.architecture.lines ++ [Label.fence])).isSome = true

instance : Decidable d.Covered :=
  decidable_of_iff (isHeader d.overview = false ∧ (isHeader d.architecture = true →
      (fencedLines? (d.architecture.lines ++ [Label.fence])).isSome = true))
    ⟨fun ⟨overview, architecture⟩ => ⟨overview, architecture⟩,
      fun ⟨overview, architecture⟩ => ⟨overview, architecture⟩⟩

/-- A document up to the second. -/
def toSecond (d : Document) : Document := { d with updated := d.updated.map Instant.wholeSecond }

theorem render_toSecond (d : Document) : d.toSecond.render = d.render := by
  have hu : ∀ o : Option Instant, (o.map Instant.wholeSecond).map
      (fun i => (Label.updated ++ (" " : Text) ++ i.text : Text)) =
      o.map fun i => Label.updated ++ " " ++ i.text := by
    intro o
    cases o with
    | none => rfl
    | some i => simp [Instant.text_wholeSecond]
  have hh : d.toSecond.headLines = d.headLines := by
    simp only [headLines, toSecond, hu]
  simp only [render, parts, hh]
  rfl

theorem body_overview (task : Text) (hr : '\r' ∉ t) : Body (read task t).overview :=
  body_bodyOf hr (Heading.text .overview)

theorem exists_body_architecture (task : Text) (hr : '\r' ∉ t) :
    ∃ b, Body b ∧ (read task t).architecture = withoutFence b :=
  ⟨_, body_bodyOf hr (Heading.text .architecture), rfl⟩

theorem legible_toSecond (hr : '\r' ∉ t) (hb : task.blank = false) (hs : task.Single)
    (hu : ∀ i ∈ (read task t).updated, 0 ≤ i.date.year ∧ i.date.year ≤ 9999)
    (hc : (read task t).Covered) : (read task t).toSecond.Legible := by
  obtain ⟨b, hbody, harch⟩ := exists_body_architecture task hr
  have hov := body_overview task hr
  have hc' := hc.architecture
  rw [harch] at hc'
  have hq : Quiet (architectureLinesOf (read task t).architecture) := by
    rw [harch]
    exact hbody.quiet_architecture hc'
  have hra : '\r' ∉ (read task t).architecture := by
    rw [harch]
    exact not_return_mem_withoutFence hbody.returns
  have hdecisions : '\r' ∉ bodyOf (split t).2 (Heading.text .decisions) :=
    (body_bodyOf hr _).returns
  exact
    { task := by rw [toSecond, task_read, hb]
      single := by rw [toSecond, task_read]; exact hs
      overview := firm_orIfBlank hov.returns (by decide)
      architecture := firm_orIfBlank hra (by decide)
      quiet := hov.quiet_overview hc.overview
      diagram := hq
      decisions := fun x hx => (Decision.plain_settled_of_mem_readTable hdecisions hx).1
      updated := by
        intro i hi
        obtain ⟨j, hj, rfl⟩ := Option.map_eq_some_iff.mp hi
        obtain ⟨s, hread⟩ := exists_read?_of_mem_updated hj
        obtain ⟨hfirst, hlast⟩ := hu j hj
        exact ((Instant.timely_of_read? hread).shown hfirst hlast).plain }

/-- What is read of a text without carriage returns is settled, but for the texts that are written
in place of blank ones. -/
theorem settled_toSecond (hr : '\r' ∉ t) (hb : task.blank = false) (hs : task.Single)
    (ht : task.trim = task) : (read task t).toSecond.settled =
      { (read task t).toSecond with
        overview := orIfBlank (read task t).overview overviewPlaceholder
        architecture := orIfBlank (read task t).architecture defaultArchitecture } := by
  obtain ⟨b, hbody, harch⟩ := exists_body_architecture task hr
  obtain ⟨hflat, hblank⟩ := title_read hr hb hs ht
  have hoverview : (read task t).overview.trim = (read task t).overview :=
    (body_overview task hr).trim
  have hblock : (read task t).architecture.block = (read task t).architecture := by
    rw [harch]
    exact block_withoutFence b
  have hsection : ∀ h : Heading, '\r' ∉ bodyOf (split t).2 h.text := fun h =>
    (body_bodyOf hr h.text).returns
  have hcomponents : (read task t).components.map Component.settled = (read task t).components :=
    Component.settled_readAll (hsection .components)
  have hdecisions : Decision.settledTable (read task t).decisions = (read task t).decisions :=
    Decision.settledTable_readTable (hsection .decisions)
  have hadrs : Text.settledList (read task t).adrs = (read task t).adrs :=
    Bullet.settledList_readItems (hsection .adrs)
  have hrequirements : Text.settledList (read task t).requirements = (read task t).requirements :=
    Bullet.settledList_readItems (hsection .requirements)
  simp only [settled, toSecond, hflat, hblank, hcomponents, hdecisions, hadrs, hrequirements,
    Text.settledOverview, Text.settledArchitecture, hoverview, hblock, orIfBlank]
  rfl

theorem render_orIfBlank (d : Document) :
    { d with
      overview := orIfBlank d.overview overviewPlaceholder
      architecture := orIfBlank d.architecture defaultArchitecture }.render = d.render := by
  simp only [render, parts, overviewLines, architectureLines, orIfBlank_orIfBlank]
  rfl

theorem normalised_normalised_of_covered (hr : '\r' ∉ t) (hb : task.blank = false)
    (hs : task.Single) (ht : task.trim = task)
    (hu : ∀ i ∈ (read task t).updated, 0 ≤ i.date.year ∧ i.date.year ≤ 9999)
    (hc : (read task t).Covered) : normalised task (normalised task t) = normalised task t := by
  have hl := legible_toSecond hr hb hs hu hc
  have htask : (read task t).toSecond.task = task := task_read task t
  calc normalised task (normalised task t)
      = (read (read task t).toSecond.task (read task t).toSecond.render).render := by
        rw [htask, render_toSecond]
        rfl
    _ = (read task t).toSecond.settled.render := by rw [hl.read_render]
    _ = (read task t).toSecond.render := by
        rw [settled_toSecond hr hb hs ht]
        exact render_orIfBlank _
    _ = normalised task t := render_toSecond _

/-- A diagram is lost when it is written and read back, where a header at its start is in no closed
block of code. -/
theorem rereadArchitecture_of_header (hr : '\r' ∉ a) (he : a.trimEnd = a)
    (hh : isHeader a = true) (hn : fencedLines? (a.lines ++ [Label.fence]) = none) :
    rereadArchitecture a = [] := by
  have hb : a.blank = false := not_blank_of_isHeader hh
  obtain ⟨x, xs, hx, hxh⟩ := Text.exists_header hh
  rw [Text.lines_eq_splitOn hr hb he, hx] at hn
  have hnone : fencedLines? (x :: xs ++ [Label.fence, []]) = none := by
    rw [List.append_cons, fencedLines?_append_of_none rfl, hn]
  have hl : architectureLinesOf a = [] :: diagramLine :: (x :: (xs ++ [Label.fence, []])) := by
    rw [architectureLinesOf, orIfBlank_of_not hb, Text.broken_of_no_return hr, hx]
    rfl
  have hafter : Place.after diagramLine (x :: (xs ++ [Label.fence, []])) .opening = .prose := by
    rw [after_opening_of_fence rfl rfl, ← List.cons_append, hnone]
    rfl
  have hmarks : Place.prose.marks x = true := hxh
  have ho : (opened (architectureLinesOf a)).1 = [[], diagramLine] := by
    calc (opened (architectureLinesOf a)).1
        = [] :: frontOf .opening (diagramLine :: x :: (xs ++ [Label.fence, []])) := by rw [hl]; rfl
      _ = [] :: diagramLine :: frontOf .prose (x :: (xs ++ [Label.fence, []])) := by
        rw [frontOf_cons, hafter]
        rfl
      _ = [[], diagramLine] := by rw [frontOf_cons, hmarks]; rfl
  rw [rereadArchitecture, ho]
  decide

theorem isHeader_frontLines_read (hs : task.Single) (t : Text) :
    ∀ l ∈ (read task t).frontLines, isHeader l = false := by
  apply isHeader_frontLines
  rw [task_read]
  exact Text.headless_of_single hs

theorem strays_architecture_of_quiet (h : Quiet (overviewLinesOf d.overview)) :
    ∀ s ∈ d.strays .architecture,
      Text.sameIgnoringCase s.header (Heading.text .architecture) = false := by
  have hn : d.strays .architecture = [] := congrArg Prod.snd (opened_of_quiet h)
  simp [hn]

/-- What is written over again as it is has no header that is not covered: the text that such a
header stands in would be lost, and a placeholder written for it. -/
theorem covered_of_normalised (hr : '\r' ∉ t) (hs : task.Single)
    (h : normalised task (normalised task t) = normalised task t) : (read task t).Covered := by
  obtain ⟨b, hbody, harch⟩ := exists_body_architecture task hr
  have hov := body_overview task hr
  let e := read task (read task t).render
  have hagain : read task e.render = e := congrArg (read task) h
  have hfront := isHeader_frontLines_read hs t
  have hfronte : ∀ l ∈ e.frontLines, isHeader l = false := isHeader_frontLines_read hs _
  have hfixed : rereadOverview e.overview = e.overview := by
    rw [← overview_read hfronte task, hagain]
  have hoverview : isHeader (read task t).overview = false := by
    rw [← Bool.not_eq_true]
    intro hh
    have hlost : e.overview = [] := (overview_read hfront task).trans
      (rereadOverview_of_header (Text.firm_of_no_return hov.returns) hh)
    have hb := blank_of_rereadOverview hfixed
    rw [hlost] at hb
    cases hb
  refine ⟨hoverview, fun hh => ?_⟩
  rw [Option.isSome_iff_ne_none]
  intro hn
  have hra : '\r' ∉ (read task t).architecture := by
    rw [harch]
    exact not_return_mem_withoutFence hbody.returns
  have htrim : (read task t).architecture.trimEnd = (read task t).architecture := by
    rw [harch]
    exact trimEnd_withoutFence b
  have hlost : e.architecture = [] :=
    (architecture_read hfront (strays_architecture_of_quiet (hov.quiet_overview hoverview))
      task).trans (rereadArchitecture_of_header hra htrim hh hn)
  have hfixed' : rereadArchitecture e.architecture = e.architecture := by
    rw [← architecture_read hfronte
      (strays_architecture_of_quiet (quiet_of_rereadOverview hfixed)) task, hagain]
  have hb := blank_of_rereadArchitecture hfixed'
  rw [hlost] at hb
  cases hb

/-- What is written over a second time stays as it is, exactly where no header has come to stand at
the start of the overview or of the diagram and is in no closed block of code. -/
theorem normalised_normalised_iff_covered (hr : '\r' ∉ t) (hb : task.blank = false)
    (hs : task.Single) (ht : task.trim = task)
    (hu : ∀ i ∈ (read task t).updated, 0 ≤ i.date.year ∧ i.date.year ≤ 9999) :
    normalised task (normalised task t) = normalised task t ↔ (read task t).Covered :=
  ⟨covered_of_normalised hr hs, normalised_normalised_of_covered hr hb hs ht hu⟩

/-- A text with its sections in another order, a header that a block of code hides, and a time with
an offset. -/
def handwritten : Text :=
  Text.ofLines
    ["# Queue", "**Last Updated:** 2024-03-01T00:30:15.25+01:00", "## Architecture", "```mermaid",
      "## A", "```", "", "## Overview", "", "  Jobs", " ## wait", "", "## Components", "### Worker",
      "* **Purpose:**  run | jobs"]

theorem normalised_handwritten : (read "T-1" handwritten).Covered ∧
    normalised "T-1" (normalised "T-1" handwritten) = normalised "T-1" handwritten := by
  have hread : read "T-1" handwritten =
      { task := "T-1"
        title := "Queue"
        overview := "Jobs\n ## wait"
        architecture := "## A"
        components := [⟨"Worker", "run | jobs", [], []⟩]
        decisions := []
        adrs := []
        requirements := []
        updated := some ⟨⟨2024, 2, 29⟩, 84615, 250000000⟩ } := by decide +kernel
  have hu : ∀ i ∈ (read "T-1" handwritten).updated, 0 ≤ i.date.year ∧ i.date.year ≤ 9999 := by
    rw [hread]
    decide
  have hc : (read "T-1" handwritten).Covered := by
    rw [hread]
    decide
  exact ⟨hc, (normalised_normalised_iff_covered (by decide +kernel) rfl (by decide) rfl hu).mpr hc⟩

/-- A text whose overview starts with a header once the blank before it is cut. -/
def exposed : Text := "## Overview\n ## X"

theorem normalised_exposed : (read "T-1" exposed).overview = "## X" ∧
    (read "T-1" (normalised "T-1" exposed)).overview = [] ∧
    normalised "T-1" (normalised "T-1" exposed) ≠ normalised "T-1" exposed := by
  have hfirst : (read "T-1" exposed).overview = "## X" := by decide +kernel
  have hfront := @isHeader_frontLines_read "T-1" (by decide) exposed
  refine ⟨hfirst, ?_, fun h => ?_⟩
  · rw [normalised, overview_read hfront, hfirst]
    decide
  · have hc := (covered_of_normalised (by decide +kernel) (by decide) h).overview
    rw [hfirst] at hc
    cases hc

end Document

end DesignRecords
