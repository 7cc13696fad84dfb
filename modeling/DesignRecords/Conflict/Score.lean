import DesignRecords.Conflict.Basic
import DesignRecords.Text.Blank

namespace DesignRecords

/-- A label on one line, cut to 80 characters. -/
def shortLabel (label : Text) : Text :=
  let label := Text.joined " " label.words
  if label.length ≤ 80 then label else label.take 77 ++ "..."

namespace Candidate

/-- What a proposal has to do with a candidate, the shared terms aside. -/
def overlap (c : Candidate) : Text :=
  let label := shortLabel c.label
  match c.kind with
  | .adrViolation => "Proposal overlaps " ++ c.source ++ " \"" ++ label ++ "\""
  | .previousDecision =>
    "Proposal overlaps decision \"" ++ label ++ "\" recorded in " ++ c.source
  | .stakeholderRequirement => "Proposal touches requirement \"" ++ label ++ "\" from " ++ c.source

/-- What is to be done about a candidate that a proposal overlaps. -/
def advice (c : Candidate) : Text :=
  match c.kind with
  | .adrViolation =>
    "Review " ++ c.source ++
      " before proceeding; supersede it with a new ADR if the decision has to change"
  | .previousDecision => "Coordinate with the owner of " ++ c.source ++ " before diverging"
  | .stakeholderRequirement => "Confirm the change still satisfies this requirement"

/-- The conflict with a candidate that shares the terms `matched`. -/
def conflict (c : Candidate) (matched : List Text) : Conflict where
  kind := c.kind
  source := c.source
  description := c.overlap ++ " on: " ++ Text.joined ", " matched
  recommendation := c.advice
  matched := matched

end Candidate

namespace Thresholds

/-- The conflict of a proposal with a candidate, if they share enough terms. -/
def score (th : Thresholds) (proposal : List Text) (c : Candidate) : Option Conflict :=
  let matched := th.shared proposal c.text
  if th.flagged matched.length then some (c.conflict matched) else none

/-- The conflicts of a proposal with some candidates, in order and each once. -/
def conflicts (th : Thresholds) (proposal : List Text) (cs : List Candidate) : List Conflict :=
  increasing (cs.filterMap (th.score proposal))

/-- The terms of a proposal. -/
def proposal (th : Thresholds) (r : Request) : List Text :=
  increasing (th.terms r.changes ++ th.pathTerms r.files)

end Thresholds

end DesignRecords
