import DesignRecords.Conflict.Term
import DesignRecords.Text.Line

namespace DesignRecords

/-- What a proposal may run into. -/
inductive ConflictKind
  | adrViolation
  | previousDecision
  | stakeholderRequirement
deriving DecidableEq, Repr

inductive Severity
  | high
  | medium
  | low
deriving DecidableEq, Repr, Ord

def Severity.text : Severity → Text
  | high => "high"
  | medium => "medium"
  | low => "low"

namespace ConflictKind

def severity : ConflictKind → Severity
  | adrViolation => .high
  | previousDecision => .medium
  | stakeholderRequirement => .low

def text : ConflictKind → Text
  | adrViolation => "ADR violation"
  | previousDecision => "previous decision"
  | stakeholderRequirement => "stakeholder requirement"

/-- The name that the kind has in machine-readable reports. -/
def key : ConflictKind → Text
  | adrViolation => "adr_violation"
  | previousDecision => "previous_decision"
  | stakeholderRequirement => "stakeholder_requirement"

end ConflictKind

/-- A change that a task proposes. -/
structure Request where
  task : Text
  changes : Text
  files : List Path
deriving DecidableEq, Repr

/-- A piece of recorded knowledge that a proposal is compared with. -/
structure Candidate where
  kind : ConflictKind
  source : Text
  /-- How the piece is named in messages. -/
  label : Text
  /-- What the proposal is compared with. -/
  text : Text
deriving DecidableEq, Repr

/-- A proposal and a piece of recorded knowledge that speak of the same things. -/
structure Conflict where
  kind : ConflictKind
  source : Text
  description : Text
  recommendation : Text
  /-- The terms that both have. -/
  matched : List Text
deriving DecidableEq, Repr

/-- Conflicts are ordered by severity, then by source, then by description. -/
instance : Ord Conflict where
  compare a b :=
    (compare a.kind.severity b.kind.severity).then <|
      (compare a.source b.source).then <| compare a.description b.description

namespace Conflict

/-- The conflict as it is shown, on three lines. -/
def text (c : Conflict) : Text :=
  Text.ofLines
    ["[" ++ c.kind.severity.text ++ "] " ++ c.kind.text ++ " (" ++ c.source ++ ")",
      "  " ++ c.description,
      "  -> " ++ c.recommendation]

end Conflict

end DesignRecords
