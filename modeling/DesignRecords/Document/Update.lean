import DesignRecords.Document.Basic
import DesignRecords.Text.Blank
import DesignRecords.Text.Lowercase

namespace DesignRecords

/-- A change of one section of a design document. -/
inductive Update
  | overview (content : Text)
  | architecture (content : Text)
  /-- Adds a decision with the given text. -/
  | decision (content : Text)
  /-- Adds a component with the given name. -/
  | component (content : Text)
deriving DecidableEq, Repr

namespace Update

/-- The name of the section that is changed. -/
def sectionName : Update → Text
  | overview _ => "overview"
  | architecture _ => "architecture"
  | decision _ => "decisions"
  | component _ => "components"

/-- A section name as it was typed, in the spelling of `sectionName`. -/
def normalName (name : Text) : Text := Text.lowercase name.trim

/-- The change of the section with a name. -/
def ofSection? (name content : Text) : Option Update :=
  [overview content, architecture content, decision content, component content].find?
    fun u => u.sectionName == normalName name

def apply (d : Document) : Update → Document
  | overview content => { d with overview := content }
  | architecture content => { d with architecture := content }
  | decision content => { d with decisions := d.decisions ++ [.stated content] }
  | component content => { d with components := d.components ++ [.named content] }

end Update

end DesignRecords
