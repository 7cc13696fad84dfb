import DesignRecords.Document.Basic

namespace DesignRecords

/-- What a design document has to say, placeholders left out. -/
structure Summary where
  task : Text
  title : Text
  overview : Option Text
  architecture : Option Text
  /-- Names of the components. -/
  components : List Text
  decisions : List Decision
  /-- Texts of the decisions that may deserve a record of their own. -/
  candidates : List Text
  requirements : List Text
deriving DecidableEq, Repr

/-- The trimmed text, unless it says nothing. -/
def substance? (t : Text) : Option Text := if isPlaceholder t then none else some t.trim

def Document.summary (d : Document) : Summary where
  task := d.task
  title := d.title
  overview := substance? d.overview
  architecture := substance? d.architecture
  components := d.components.map (·.name)
  decisions := d.decisions.filter fun decision => !decision.decision.blank
  candidates := (d.decisions.filter (·.candidate)).map (·.decision)
  requirements := d.requirements

/-- Whether there is nothing to learn from a document. -/
def Summary.isEmpty (s : Summary) : Bool :=
  s.overview.isNone && s.architecture.isNone && s.components.isEmpty && s.decisions.isEmpty &&
    s.requirements.isEmpty

end DesignRecords
