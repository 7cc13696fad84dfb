import DesignRecords.Text.Basic

namespace DesignRecords

/-- The sections of a design document, in the order in which they are written. -/
inductive Heading where
  | overview
  | architecture
  | components
  | decisions
  | adrs
  | requirements
deriving DecidableEq, Repr

def Heading.text : Heading → Text
  | overview => "Overview"
  | architecture => "Architecture"
  | components => "Components"
  | decisions => "Technical Decisions"
  | adrs => "Related ADRs"
  | requirements => "Stakeholder Requirements"

namespace Label

def title : Text := "Technical Design:"

def task : Text := "**Task:**"

def updated : Text := "**Last Updated:**"

def purpose : Text := "**Purpose:**"

def interfaces : Text := "**Interfaces:**"

def dependencies : Text := "**Dependencies:**"

def status : Text := "**Status:**"

def source : Text := "**Source:**"

/-- What stands in place of a list without items. -/
def noItems : Text := "_None recorded._"

/-- The end of the source cell of a candidate. -/
def candidate : Text := "(ADR candidate)"

def fence : Text := "```"

end Label

end DesignRecords
