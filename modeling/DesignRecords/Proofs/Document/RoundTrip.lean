import DesignRecords.Proofs.Document.Reread

namespace DesignRecords.Document

open Section

variable {d : Document} {t : Text}

/-- What a document must be like for its text to say all that is in it: its overview and its diagram
start no sections of their own, and no line of them loses a carriage return. -/
structure Legible (d : Document) : Prop where
  task : d.task.blank = false
  single : d.task.Single
  overview : d.writtenOverview.Firm
  architecture : d.writtenArchitecture.Firm
  quiet : Quiet d.overviewBody
  diagram : Quiet d.architectureBody
  decisions : ∀ x ∈ d.decisions, x.Plain
  updated : ∀ i ∈ d.updated, i.Plain

theorem frontLines_of_single (h : d.task.Single) : d.frontLines = d.headLines :=
  Text.broken_eq_self fun _ => single_headLines h

theorem Legible.findable (h : d.Legible) : d.Findable where
  front := by
    rw [frontLines_of_single h.single]
    exact fun _ => isHeader_headLines
  strays := by
    intro k
    cases k <;> simp [strays, opened_of_quiet h.quiet, opened_of_quiet h.diagram]

theorem flat_of_single (h : t.Single) : t.flat = t.trim := by
  rw [Text.flat, Text.singleLine_of_single h.not_feed_mem h.not_return_mem]

theorem Legible.title (h : d.Legible) :
    (Text.lines (Text.ofLines d.frontLines)).findSome? titleOnLine? = some d.settled.title := by
  have hw : d.writtenTitle.blank = false := by
    unfold writtenTitle orIfBlank
    split
    · exact h.task
    · simpa using ‹¬d.title.blank = true›
  rw [frontLines, findSome?_title hw, writtenTitle, orIfBlank, apply_ite Text.flat,
    flat_of_single h.single]
  rfl

/-- Reading undoes writing, up to the settled form of what is read. -/
theorem Legible.read_render (h : d.Legible) : read d.task d.render = d.settled := by
  have hu : (Text.lines (Text.ofLines d.frontLines)).findSome? updatedOnLine? = d.updated :=
    findSome?_updated h.single h.updated
  rw [h.findable.read_render h.decisions, h.title, hu,
    rereadOverview_of_quiet h.overview h.quiet,
    rereadArchitecture_of_quiet h.architecture h.diagram]
  rfl

/-- What is checked line by line: the overview and the diagram have no carriage returns and no
section headers; a diagram without fences may have headers too. -/
structure Plain (d : Document) : Prop where
  task : d.task.blank = false
  single : d.task.Single
  overview : '\r' ∉ d.overview
  architecture : '\r' ∉ d.architecture
  quiet : ∀ l ∈ d.overview.lines, Section.isHeader l = false
  diagram : (∀ l ∈ d.architecture.lines, Section.isHeader l = false) ∨
    ∀ l ∈ d.architecture.lines, isFence l = false
  decisions : ∀ x ∈ d.decisions, x.Plain
  updated : ∀ i ∈ d.updated, i.Plain

theorem Plain.legible (h : d.Plain) : d.Legible where
  task := h.task
  single := h.single
  overview := firm_orIfBlank h.overview (by decide)
  architecture := firm_orIfBlank h.architecture (by decide)
  quiet := quiet_overviewLinesOf h.overview h.quiet
  diagram := quiet_architectureLinesOf h.architecture h.diagram
  decisions := h.decisions
  updated := h.updated

/-- Every plain document is read from its own text as its settled form. -/
theorem read_render_of_plain (h : d.Plain) : read d.task d.render = d.settled :=
  h.legible.read_render

/-- A document whose texts look like the markup around them. -/
def tangled : Document where
  task := "T-1"
  title := " a\nb"
  overview := "```\n### x\n| y |\n"
  architecture := "\n## z\n- w  "
  components := [⟨"A|B\n## C", "p\\", ["x, y", " "], []⟩]
  decisions := [⟨"a|b\\", "| r |", " ", some ⟨2024, 2, 29⟩, true⟩, .stated "\n"]
  adrs := [" ", "- [x](y)"]
  requirements := ["_None recorded._"]
  updated := some ⟨⟨2016, 12, 31⟩, 86399, 1000000000⟩

theorem plain_tangled : tangled.Plain where
  task := rfl
  single := by decide
  overview := by decide
  architecture := by decide
  quiet := by decide
  diagram := Or.inr (by decide)
  decisions := by
    intro x hx
    rcases (by simpa [tangled] using hx : _ ∨ _) with rfl | rfl
    · refine ⟨?_, fun h => by cases h⟩
      intro day hday
      cases hday
      exact (by decide : Date.ofParts? 2024 2 29 = some ⟨2024, 2, 29⟩)
    · exact ⟨fun _ h => (by cases h), fun _ => by decide⟩
  updated := by
    intro i hi
    cases hi
    exact ⟨(by decide : Date.ofParts? 2016 12 31 = some ⟨2016, 12, 31⟩), by decide, by decide,
      by decide, by decide⟩

theorem read_render_tangled : read "T-1" tangled.render =
    { tangled with
      title := "a b"
      overview := "```\n### x\n| y |"
      architecture := "## z\n- w"
      components := [⟨"A|B ## C", "p\\", ["x", "y"], []⟩]
      decisions := [⟨"a|b\\", "| r |", [], some ⟨2024, 2, 29⟩, true⟩]
      adrs := ["- [x](y)"] } :=
  (read_render_of_plain plain_tangled).trans (by decide)

end DesignRecords.Document
