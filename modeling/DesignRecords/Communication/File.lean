import DesignRecords.Communication.Basic
import DesignRecords.Workspace.Ticket
import DesignRecords.Yaml.Grammar
import DesignRecords.Yaml.Value

namespace DesignRecords

namespace Communication

/-- The fields of a communication in its YAML form. -/
def fieldNames : List Text := ["id", "tags", "content", "topic", "contact", "source", "date"]

/-- The text of a field, empty where the field is missing. -/
def textField (fields : Yaml.Fields) (name : Text) : Yaml.Visit Text :=
  match fields.get? name with
  | none => return []
  | some n => Yaml.Visit.text n

/-- The tags of a communication, none where the field is missing. -/
def tagsField (fields : Yaml.Fields) : Yaml.Visit (List Tag) :=
  match fields.get? "tags" with
  | none => return []
  | some n => do (← Yaml.Visit.items n).mapM (Yaml.Visit.choice Tag.ofText?)

/-- The communication in a YAML mapping. Only content and date have to be there, and fields of other
names are passed over. -/
def ofNode (n : Yaml.Node) : Yaml.Visit Communication := do
  let fields ← Yaml.Visit.fields fieldNames n
  return {
    id := ← textField fields "id"
    tags := ← tagsField fields
    content := ← Yaml.Visit.text (← fields.get? "content")
    topic := ← textField fields "topic"
    contact := ← textField fields "contact"
    source := ← textField fields "source"
    date := ← Instant.readLoose? (← Yaml.Visit.text (← fields.get? "date")) }

/-- The communications in a YAML sequence. -/
def listOfNode (n : Yaml.Node) : Yaml.Visit (List Communication) := do
  (← Yaml.Visit.items n).mapM ofNode

/-- The communications in a YAML text, the oldest first; those of one instant stay in order. -/
def ofText? (t : Text) : Option (List Communication) := do
  let cs ← (← Yaml.Graph.ofText? t).visit? listOfNode
  return cs.mergeSort fun a b => (compare a.date b.date).isLE

end Communication

namespace Layout

/-- The communications in the file beside a task's design document. A task without the file has
none. -/
def communications (l : Layout) (d : Disk) (task : Text) : Except Text (List Communication) :=
  let path := (l.ticket d task).entry "communications.yaml"
  match d.readText path with
  | .error fault =>
    if fault.kind = .notFound then .ok []
    else .error ("Failed to read " ++ path.text ++ ": " ++ fault.message)
  | .ok t =>
    if t.blank then .ok []
    else
      match Communication.ofText? t with
      | some cs => .ok cs
      | none => .error ("Failed to parse " ++ path.text)

end Layout

end DesignRecords
