import DesignRecords.Document.Table
import DesignRecords.Document.Listing

namespace DesignRecords.Document

/-- A text, or another one in its place if it is blank. -/
def orIfBlank (t other : Text) : Text := if t.blank then other else t

/-- The header lines of a section. -/
def headerLines (h : Heading) : List Text := ["## " ++ h.text, []]

/-- The head of a document: title, task, and the time of the last change. -/
def headLines (d : Document) : List Text :=
  ["# " ++ Label.title ++ " " ++ Text.singleLine (orIfBlank d.title d.task), [],
    Label.task ++ " " ++ d.task] ++
    (d.updated.map fun i => Label.updated ++ " " ++ i.text).toList ++ [[]]

def overviewLines (d : Document) : List Text :=
  headerLines .overview ++ [orIfBlank d.overview overviewPlaceholder, []]

def architectureLines (d : Document) : List Text :=
  headerLines .architecture ++
    [Label.fence ++ "mermaid", orIfBlank d.architecture defaultArchitecture, Label.fence, []]

def componentLines (d : Document) : List Text :=
  headerLines .components ++
    if d.components.isEmpty then [Label.noItems, []] else d.components.flatMap Component.lines

def decisionLines (d : Document) : List Text :=
  headerLines .decisions ++
    ["| Decision | Rationale | Source | Date |".toList,
      "|----------|-----------|--------|------|".toList] ++ d.decisions.map Decision.row ++ [[]]

def adrLines (d : Document) : List Text :=
  headerLines .adrs ++ Bullet.lines d.adrs ++ [[]]

def requirementLines (d : Document) : List Text :=
  headerLines .requirements ++ Bullet.lines d.requirements

/-- The parts of a written document, line by line. A part may itself have line breaks. -/
def parts (d : Document) : List Text :=
  d.headLines ++ d.overviewLines ++ d.architectureLines ++ d.componentLines ++ d.decisionLines ++
    d.adrLines ++ d.requirementLines

/-- The markdown text of a document. -/
def render (d : Document) : Text := Text.ofLines d.parts ++ ['\n']

end DesignRecords.Document
