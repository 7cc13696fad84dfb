import DesignRecords.Document.Basic

namespace DesignRecords

/-- What a communication carries. -/
inductive Tag
  | decision
  | requirement
  | question
  | update
  | blocker
deriving DecidableEq, Repr

namespace Tag

def all : List Tag := [.decision, .requirement, .question, .update, .blocker]

def text : Tag → Text
  | decision => "decision"
  | requirement => "requirement"
  | question => "question"
  | update => "update"
  | blocker => "blocker"

def ofText? (t : Text) : Option Tag := all.find? (·.text == t)

end Tag

/-- A message that was recorded for a task. -/
structure Communication where
  id : Text
  tags : List Tag
  content : Text
  topic : Text
  /-- Who the message came from. -/
  contact : Text
  /-- Where the message came from. -/
  source : Text
  date : Instant
deriving DecidableEq, Repr

namespace Communication

/-- Where and who a message came from, as far as that is known. -/
def attribution (c : Communication) : Text :=
  let source := c.source.trim
  let contact := c.contact.trim
  if source.isEmpty && contact.isEmpty then "communication"
  else if contact.isEmpty then source
  else if source.isEmpty then contact
  else source ++ "-" ++ contact

/-- The decision that a message tells of. -/
def toDecision (c : Communication) : Decision where
  decision := c.content
  rationale := c.topic.trim
  source := c.attribution
  date := some c.date.date
  candidate := true

/-- The requirements among messages. -/
def requirements (cs : List Communication) : List Text :=
  (cs.filter (·.tags.contains .requirement)).map (·.content)

/-- The decisions that messages tell of. -/
def decisions (cs : List Communication) : List Decision :=
  (cs.filter (·.tags.contains .decision)).map toDecision

end Communication

end DesignRecords
