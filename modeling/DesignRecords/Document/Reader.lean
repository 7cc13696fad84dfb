import DesignRecords.Document.Table
import DesignRecords.Document.Listing
import DesignRecords.Document.Section

namespace DesignRecords.Document

/-- The title on a line, if it is a title line that has one. -/
def titleOnLine? (line : Text) : Option Text := do
  let rest ← Text.after? "# " line
  let rest := rest.trim
  let title := Text.trim ((Text.after? Label.title rest).getD rest)
  if title.isEmpty then none else some title

/-- The time of the last change on a line. -/
def updatedOnLine? (line : Text) : Option Instant := do
  Instant.read? (Text.trim (← Text.after? Label.updated line.trim))

/-- A block of code without the fences around it, blank lines in front of it, and blanks at its
end. -/
def withoutFence (body : Text) : Text :=
  let lines := body.lines
  let inner :=
    match lines with
    | [] => []
    | line :: rest =>
      if !Section.isFence line then lines
      else if (rest.getLast?.map Section.isBareFence).getD false then rest.dropLast
      else rest
  Text.trimEnd (Text.ofLines (inner.dropWhile Text.blank))

/-- The document of a task in a markdown text, written by hand or by `render`. Sections in any
order, missing sections and malformed rows are allowed, so every text is a document. -/
def read (task t : Text) : Document :=
  let (preamble, sections) := Section.split t
  let body (h : Heading) := Section.bodyOf sections h.text
  { task := task
    title := (preamble.lines.findSome? titleOnLine?).getD task
    overview := body .overview
    architecture := withoutFence (body .architecture)
    components := Component.readAll (body .components)
    decisions := Decision.readTable (body .decisions)
    adrs := Bullet.readItems (body .adrs)
    requirements := Bullet.readItems (body .requirements)
    updated := preamble.lines.findSome? updatedOnLine? }

end DesignRecords.Document
