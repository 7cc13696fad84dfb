import DesignRecords.Path
import DesignRecords.Document.Section
import DesignRecords.Text.Lowercase

namespace DesignRecords

/-- A record of an architecture decision: a markdown file with its metadata on labelled lines. -/
structure Adr where
  path : Path
  title : Text
  status : Option Text
  /-- The task that the decision came from. -/
  source : Option Text
  decision : Text
deriving DecidableEq, Repr

namespace Adr

/-- The name that a record goes by: the number at the start of its file name, or the file name. -/
def idOf (fileName : Text) : Text :=
  let stem := (Text.before? ".md" fileName).getD fileName
  let rest := ((Text.after? "ADR-" stem).or (Text.after? "adr-" stem)).getD stem
  let digits := rest.takeWhile Char.isDigit
  if digits.isEmpty then stem else "ADR-" ++ digits

/-- The name of the file at a path, empty where the path has none. -/
def nameAt (p : Path) : Text := p.fileName?.getD []

def fileName (a : Adr) : Text := nameAt a.path

def id (a : Adr) : Text := idOf a.fileName

/-- The value on a metadata line, if it is not blank. -/
def valueOnLine? (label line : Text) : Option Text := do
  let line := line.trim
  let line := (Text.after? "- " line).getD line
  let value ← Text.after? label line
  if Text.blank value then none else some (Text.trim value)

/-- The first value that a text gives under a label. -/
def metadata? (label t : Text) : Option Text := t.lines.findSome? (valueOnLine? label)

/-- Whether a line is a title or holds metadata. -/
def isMetadata (line : Text) : Bool :=
  let line := line.trim
  line.startsWith "# " || line.startsWith "**" || line.startsWith "- **"

/-- The lines of a text that are no metadata. -/
def prose (t : Text) : Text :=
  Text.trim (Text.ofLines (t.lines.filter (!isMetadata ·)))

/-- What the first title line of a text says, if that is not blank. -/
def title? (t : Text) : Option Text := do
  let title ← t.lines.findSome? (Text.after? "# ")
  if Text.blank title then none else some (Text.trim title)

/-- The record in the text of a file. -/
def read (path : Path) (t : Text) : Adr :=
  let decision := (Section.split t).2.find? fun s => Text.sameIgnoringCase s.header "Decision"
  { path := path
    title := (title? t).getD (idOf (nameAt path))
    status := metadata? Label.status t
    source := metadata? Label.source t
    decision := (decision.map (·.body)).getD (prose t) }

/-- How the status of a decision begins that no longer holds. -/
def inactiveStatuses : List Text := ["superseded", "deprecated", "rejected"]

/-- Whether a decision holds. -/
def active (a : Adr) : Bool :=
  match a.status with
  | none => true
  | some status => !inactiveStatuses.any status.lowercase.startsWith

end Adr

end DesignRecords
