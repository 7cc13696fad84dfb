import DesignRecords.Calendar.Instant

namespace DesignRecords

/-- A part of a task's design; dependencies are names of other parts or of systems. -/
structure Component where
  name : Text
  purpose : Text
  interfaces : List Text
  dependencies : List Text
deriving DecidableEq, Repr

/-- A decision with its reason, and who or what it came from. A candidate was lifted from a message
and may deserve a decision record of its own. -/
structure Decision where
  decision : Text
  rationale : Text
  source : Text
  date : Option Date
  candidate : Bool
deriving DecidableEq, Repr

/-- The design document of one task. -/
structure Document where
  task : Text
  title : Text
  overview : Text
  /-- A diagram in the Mermaid language, without a fence. -/
  architecture : Text
  components : List Component
  decisions : List Decision
  /-- Links to decision records. -/
  adrs : List Text
  requirements : List Text
  updated : Option Instant
deriving DecidableEq, Repr

/-- A component of which only the name is known. -/
def Component.named (name : Text) : Component := ⟨name, [], [], []⟩

/-- A decision of which only the text is known. -/
def Decision.stated (decision : Text) : Decision := ⟨decision, [], [], none, false⟩

/-- What stands for an overview that nobody has written. -/
def overviewPlaceholder : Text := "[Provide a high-level overview of the technical approach]"

/-- The diagram of a design without components. -/
def defaultArchitecture : Text := "graph TB\n    empty[No components defined]"

/-- The document of a task nothing is known about. -/
def Document.scaffold (task : Text) : Document where
  task := task
  title := task
  overview := overviewPlaceholder
  architecture := defaultArchitecture
  components := []
  decisions := []
  adrs := []
  requirements := []
  updated := none

/-- Whether a text says nothing: blank, the default diagram, or one line in square brackets. -/
def isPlaceholder (t : Text) : Bool :=
  let t := t.trim
  t.isEmpty || t == defaultArchitecture ||
    (t.startsWith "[" && t.endsWith "]" && !t.contains '\n')

end DesignRecords
