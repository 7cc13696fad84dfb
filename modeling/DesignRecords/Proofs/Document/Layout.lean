import DesignRecords.Proofs.Document.Components
import DesignRecords.Proofs.Document.Decisions

namespace DesignRecords

namespace Bullet

variable {l : Text} {items : List Text}

theorem single_lines (h : l ∈ lines items) : l.Single := by
  unfold lines at h
  split at h
  · rw [List.mem_singleton.mp h]
    decide
  · obtain ⟨item, -, rfl⟩ := List.mem_map.mp h
    exact (show Text.Single ("- " : String).toList by decide).append (Text.single_singleLine item)

theorem inert_lines (h : l ∈ lines items) : Section.Inert l := by
  unfold lines at h
  split at h
  · rw [List.mem_singleton.mp h]
    exact ⟨rfl, rfl⟩
  · obtain ⟨item, -, rfl⟩ := List.mem_map.mp h
    exact ⟨rfl, rfl⟩

end Bullet

namespace Document

open Section

variable {d : Document} {l : Text}

/-- The overview as it is written. -/
def writtenOverview (d : Document) : Text := orIfBlank d.overview overviewPlaceholder

/-- The diagram as it is written. -/
def writtenArchitecture (d : Document) : Text := orIfBlank d.architecture defaultArchitecture

def overviewBody (d : Document) : List Text := [] :: Text.broken d.writtenOverview ++ [[]]

def architectureBody (d : Document) : List Text :=
  [] :: (Label.fence ++ ("mermaid" : Text)) :: Text.broken d.writtenArchitecture ++
    [Label.fence, []]

def decisionBody (d : Document) : List Text :=
  [] :: (Decision.tableHead ++ d.decisions.map Decision.row) ++ [[]]

def adrBody (d : Document) : List Text := [] :: Bullet.lines d.adrs ++ [[]]

def requirementBody (d : Document) : List Text := [] :: Bullet.lines d.requirements

/-- The line that starts a section. -/
def headingLine (h : Heading) : Text := "## " ++ h.text

/-- The sections of a written document behind the overview, each with its header line. -/
def laterBlocks (d : Document) : List (Text × List Text) :=
  [(headingLine .components, Component.bodyLines d.components),
    (headingLine .decisions, d.decisionBody), (headingLine .adrs, d.adrBody),
    (headingLine .requirements, d.requirementBody)]

/-- The sections of a written document, each with its header line. -/
def blocks (d : Document) : List (Text × List Text) :=
  (headingLine .overview, d.overviewBody) :: (headingLine .architecture, d.architectureBody) ::
    d.laterBlocks

theorem single_componentBody {cs : List Component} (h : l ∈ Component.bodyLines cs) :
    l.Single := by
  rcases List.mem_cons.mp h with rfl | h
  · decide
  · split at h
    · rcases (by simpa using h : l = Label.noItems ∨ l = []) with rfl | rfl <;> decide
    · obtain ⟨c, -, h⟩ := List.mem_flatMap.mp h
      exact Component.single_lines h

theorem single_decisionBody (h : l ∈ d.decisionBody) : l.Single := by
  simp only [decisionBody, List.mem_append, List.mem_cons, List.mem_map, List.not_mem_nil,
    or_false] at h
  rcases h with (rfl | h | ⟨x, -, rfl⟩) | rfl
  · decide
  · exact (show ∀ l ∈ Decision.tableHead, l.Single by decide) l h
  · exact x.single_row
  · decide

theorem single_adrBody (h : l ∈ d.adrBody) : l.Single := by
  simp only [adrBody, List.mem_append, List.mem_cons, List.not_mem_nil, or_false] at h
  rcases h with (rfl | h) | rfl
  · decide
  · exact Bullet.single_lines h
  · decide

theorem single_requirementBody (h : l ∈ d.requirementBody) : l.Single := by
  rcases List.mem_cons.mp h with rfl | h
  · decide
  · exact Bullet.single_lines h

theorem single_headingLine (h : Heading) : (headingLine h).Single := by
  cases h <;> decide

/-- A part on single lines is written as it is, below its header line. -/
theorem broken_part (h : Heading) {ls : List Text} (hl : ∀ l ∈ ls, l.Single) :
    (headingLine h :: ls).flatMap Text.broken = headingLine h :: ls := by
  apply Text.broken_eq_self
  intro l hm
  rcases List.mem_cons.mp hm with rfl | hm
  · exact single_headingLine h
  · exact hl l hm

theorem lines_render (d : Document) :
    d.render.lines = d.headLines.flatMap Text.broken ++ blockLines d.blocks := by
  have hn : d.parts ≠ [] := by simp [parts, headLines]
  have ho : d.overviewLines.flatMap Text.broken = headingLine .overview :: d.overviewBody := rfl
  have ha : d.architectureLines.flatMap Text.broken =
      headingLine .architecture :: d.architectureBody := rfl
  have hc : d.componentLines.flatMap Text.broken =
      headingLine .components :: Component.bodyLines d.components :=
    broken_part .components fun _ => single_componentBody
  have hd : d.decisionLines.flatMap Text.broken = headingLine .decisions :: d.decisionBody :=
    broken_part .decisions fun _ => single_decisionBody
  have hr : d.adrLines.flatMap Text.broken = headingLine .adrs :: d.adrBody :=
    broken_part .adrs fun _ => single_adrBody
  have hs : d.requirementLines.flatMap Text.broken =
      headingLine .requirements :: d.requirementBody :=
    broken_part .requirements fun _ => single_requirementBody
  rw [render, Text.lines_append_feed, Text.broken_ofLines hn, parts]
  simp only [List.flatMap_append, ho, ha, hc, hd, hr, hs]
  simp [blocks, laterBlocks, blockLines]

theorem inert_componentBody {cs : List Component} (h : l ∈ Component.bodyLines cs) : Inert l := by
  rcases List.mem_cons.mp h with rfl | h
  · exact ⟨rfl, rfl⟩
  · split at h
    · rcases (by simpa using h : l = Label.noItems ∨ l = []) with rfl | rfl <;> exact ⟨rfl, rfl⟩
    · obtain ⟨c, -, h⟩ := List.mem_flatMap.mp h
      exact Component.inert_lines h

theorem inert_decisionBody (h : l ∈ d.decisionBody) : Inert l := by
  simp only [decisionBody, List.mem_append, List.mem_cons, List.mem_map, List.not_mem_nil,
    or_false] at h
  rcases h with (rfl | h | ⟨x, -, rfl⟩) | rfl
  · exact ⟨rfl, rfl⟩
  · exact (show ∀ l ∈ Decision.tableHead, Inert l by decide) l h
  · exact ⟨rfl, rfl⟩
  · exact ⟨rfl, rfl⟩

theorem inert_adrBody (h : l ∈ d.adrBody) : Inert l := by
  simp only [adrBody, List.mem_append, List.mem_cons, List.not_mem_nil, or_false] at h
  rcases h with (rfl | h) | rfl
  · exact ⟨rfl, rfl⟩
  · exact Bullet.inert_lines h
  · exact ⟨rfl, rfl⟩

theorem inert_requirementBody (h : l ∈ d.requirementBody) : Inert l := by
  rcases List.mem_cons.mp h with rfl | h
  · exact ⟨rfl, rfl⟩
  · exact Bullet.inert_lines h

/-- Nothing in the later sections can be taken for a header or for a fence. -/
theorem calm_laterBlocks (d : Document) : Calm d.laterBlocks := by
  intro b hb
  simp only [laterBlocks, List.mem_cons, List.not_mem_nil, or_false] at hb
  rcases hb with rfl | rfl | rfl | rfl
  · exact ⟨rfl, fun _ => inert_componentBody⟩
  · exact ⟨rfl, fun _ => inert_decisionBody⟩
  · exact ⟨rfl, fun _ => inert_adrBody⟩
  · exact ⟨rfl, fun _ => inert_requirementBody⟩

/-- No section of a written document ends a block of code that one before it leaves open. -/
theorem sealed_blocks (d : Document) : Sealed d.blocks :=
  ⟨rfl, rfl, rfl, d.calm_laterBlocks.fencedLines?, d.calm_laterBlocks.sealed⟩

/-- A written document is split into the sections that it was made of, and those that headers in its
overview and its diagram start. -/
theorem split_render (h : ∀ l ∈ d.headLines.flatMap Text.broken, Section.isHeader l = false) :
    split d.render = (Text.ofLines (d.headLines.flatMap Text.broken), ofBlocks d.blocks) :=
  split_of_lines d.lines_render h d.sealed_blocks

theorem ofBlocks_blocks (d : Document) :
    ofBlocks d.blocks =
      ofLines (headingLine .overview) (opened d.overviewBody).1 :: (opened d.overviewBody).2 ++
        (ofLines (headingLine .architecture) (opened d.architectureBody).1 ::
          (opened d.architectureBody).2 ++
            d.laterBlocks.map fun b => ofLines b.1 b.2) := by
  rw [← d.calm_laterBlocks.ofBlocks]
  simp [blocks, ofBlocks]

end Document

end DesignRecords
