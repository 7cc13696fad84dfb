import DesignRecords.Path

namespace DesignRecords

/-- What the program is asked to do. -/
inductive Command
  /-- Makes the design document of a task. -/
  | init (task : Text)
  /-- Prints a design document. -/
  | display (task : Text)
  /-- Changes a section of a design document. -/
  | update (task name content : Text)
  /-- Adds to a design document what was recorded elsewhere. -/
  | populate (task : Text)
  /-- Prints the components of a design document as a diagram. -/
  | diagram (task : Text)
  /-- Prints links to the decision records that came from a task. -/
  | adrs (task : Text)
  /-- Prints what a proposal may run into. -/
  | check (task changes : Text) (files : List Text) (json : Bool)
  /-- Prints what a design document has to say. -/
  | learnings (task : Text) (json : Bool)
deriving DecidableEq, Repr

/-- A command and the workspace that it works on. -/
structure Invocation where
  root : Path
  command : Command
deriving DecidableEq, Repr

/-- Why some arguments are no invocation. -/
inductive Usage
  | missingArgument
  | missingCommand
  | unknownCommand
  | unknownArgument
  /-- An option without its value, or an empty root. -/
  | invalidValue
  /-- An option given twice. -/
  | repeatedOption
  /-- A value for an option that has none. -/
  | extraValue
  | helpAsked
  | versionAsked
  /-- There are no arguments at all. -/
  | nothingGiven
deriving DecidableEq, Repr

namespace Usage

/-- Whether the arguments ask for information only. -/
def isInformation : Usage → Bool
  | helpAsked => true
  | versionAsked => true
  | _ => false

/-- How the program is used. -/
def guide : Text :=
  "Design documents, ADR links and conflict checks

Usage: dossier [--root DIR] COMMAND

Commands:
  init TASK
  show TASK
  update TASK --section NAME --content TEXT
  populate TASK
  diagram TASK
  adrs TASK
  check TASK --changes TEXT [--file PATH]... [--json]
  learnings TASK [--json]
  help [COMMAND]
"

def message : Usage → Text
  | missingArgument => "error: a required argument is missing\n"
  | missingCommand => "error: a command is missing\n"
  | unknownCommand => "error: there is no such command\n"
  | unknownArgument => "error: an argument is not expected\n"
  | invalidValue => "error: an option has no value\n"
  | repeatedOption => "error: an option is given twice\n"
  | extraValue => "error: an option takes no value\n"
  | helpAsked => guide
  | versionAsked => "dossier 0.1.0\n"
  | nothingGiven => guide

end Usage

end DesignRecords
