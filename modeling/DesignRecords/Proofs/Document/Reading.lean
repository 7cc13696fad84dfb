import DesignRecords.Proofs.Document.Body
import DesignRecords.Proofs.Document.Head

namespace DesignRecords.Document

open Section

variable {d : Document} {t : Text}

/-- The lines of the head of a written document. -/
def frontLines (d : Document) : List Text := d.headLines.flatMap Text.broken

/-- The line that a diagram is written below. -/
def diagramLine : Text := Label.fence ++ ("mermaid" : Text)

/-- The lines that an overview is written on, below its header. -/
def overviewLinesOf (t : Text) : List Text :=
  [] :: Text.broken (orIfBlank t overviewPlaceholder) ++ [[]]

/-- The lines that a diagram is written on, below its header. -/
def architectureLinesOf (t : Text) : List Text :=
  [] :: diagramLine :: Text.broken (orIfBlank t defaultArchitecture) ++ [Label.fence, []]

/-- What is read back of an overview. -/
def rereadOverview (t : Text) : Text := Text.trim (Text.ofLines (opened (overviewLinesOf t)).1)

/-- What is read back of a diagram. -/
def rereadArchitecture (t : Text) : Text :=
  withoutFence (Text.trim (Text.ofLines (opened (architectureLinesOf t)).1))

/-- Whether the parts of a written document are found again: no line of the head starts a section,
and no header inside the overview or the diagram has the name of a later section. -/
structure Findable (d : Document) : Prop where
  front : ∀ l ∈ d.frontLines, Section.isHeader l = false
  strays : ∀ h : Heading, ∀ s ∈ d.strays h, Text.sameIgnoringCase s.header h.text = false

theorem readTable_decisionBody (hd : ∀ x ∈ d.decisions, x.Plain) :
    Decision.readTable (Text.trim (Text.ofLines d.decisionBody)) =
      Decision.settledTable d.decisions :=
  @Decision.readTable_rows d.decisions hd [[]] [[]] (by simp) (by simp)

/-- What is read where every section is found: all fields but the overview and the diagram as they
were written, and of these what stands before the first header in them. -/
theorem Findable.read_render (h : d.Findable) (hd : ∀ x ∈ d.decisions, x.Plain) (t : Text) :
    read t d.render =
      { task := t
        title := ((Text.lines (Text.ofLines d.frontLines)).findSome? titleOnLine?).getD t
        overview := rereadOverview d.overview
        architecture := rereadArchitecture d.architecture
        components := d.components.map Component.settled
        decisions := Decision.settledTable d.decisions
        adrs := Text.settledList d.adrs
        requirements := Text.settledList d.requirements
        updated := (Text.lines (Text.ofLines d.frontLines)).findSome? updatedOnLine? } := by
  have hbody : ∀ k : Heading, bodyOf (ofBlocks d.blocks) k.text =
      Text.trim (Text.ofLines (d.bodyLines k)) := fun k => bodyOf_blocks (h.strays k)
  have hcomponents := Component.readAll_lines d.components
  have hdecisions := readTable_decisionBody hd
  have hadrs : Bullet.readItems (Text.trim (Text.ofLines d.adrBody)) = Text.settledList d.adrs :=
    @Bullet.readItems_lines d.adrs [[]] [[]] (by simp) (by simp)
  have hrequirements : Bullet.readItems (Text.trim (Text.ofLines d.requirementBody)) =
      Text.settledList d.requirements := by
    have he : d.requirementBody = [[]] ++ Bullet.lines d.requirements ++ [] := by
      simp [requirementBody]
    rw [he]
    exact Bullet.readItems_lines d.requirements (by simp) (by simp)
  simp only [read, split_render h.front, hbody, bodyLines, hcomponents, hdecisions, hadrs,
    hrequirements]
  rfl

theorem task_read (task t : Text) : (read task t).task = task := by
  unfold read
  rcases split t with ⟨front, sections⟩
  rfl

/-- The overview is found whatever is in it. -/
theorem overview_read (h : ∀ l ∈ d.frontLines, Section.isHeader l = false) (t : Text) :
    (read t d.render).overview = rereadOverview d.overview := by
  have hn : ∀ s ∈ d.strays .overview,
      Text.sameIgnoringCase s.header (Heading.text .overview) = false := by simp [strays]
  simp only [read, split_render h, bodyOf_blocks hn]
  rfl

/-- The diagram is found behind an overview without a header that has its name. -/
theorem architecture_read (h : ∀ l ∈ d.frontLines, Section.isHeader l = false)
    (hn : ∀ s ∈ d.strays .architecture,
      Text.sameIgnoringCase s.header (Heading.text .architecture) = false) (t : Text) :
    (read t d.render).architecture = rereadArchitecture d.architecture := by
  simp only [read, split_render h, bodyOf_blocks hn]
  rfl

/-- The decisions are found behind an overview and a diagram without a header that has their
name. -/
theorem decisions_read (h : ∀ l ∈ d.frontLines, Section.isHeader l = false)
    (hn : ∀ s ∈ d.strays .decisions,
      Text.sameIgnoringCase s.header (Heading.text .decisions) = false)
    (hd : ∀ x ∈ d.decisions, x.Plain) (t : Text) :
    (read t d.render).decisions = Decision.settledTable d.decisions := by
  simp only [read, split_render h, bodyOf_blocks hn]
  exact readTable_decisionBody hd

end DesignRecords.Document
