import DesignRecords.Communication.Basic
import DesignRecords.Conflict.Term
import DesignRecords.Disk.Session
import DesignRecords.Failure
import DesignRecords.Workspace.Ticket

namespace DesignRecords

/-- A place where design documents are kept, and what work on them depends on. -/
structure Workspace where
  layout : Layout
  thresholds : Thresholds
  /-- The present time. -/
  now : Instant
  /-- The communications of a task, or why they cannot be had. -/
  communications : Disk → Text → Except Text (List Communication)
  disturbances : Disturbances
  /-- The communications of a task when they are asked for once more in the course of some work. -/
  reread : Disk → Text → Except Text (List Communication) := communications

/-- What some work yields for each member of a list, in order. -/
def gather [Monad m] (work : α → m (List β)) : List α → m (List β)
  | [] => pure []
  | a :: rest => do
    let first ← work a
    return first ++ (← gather work rest)

/-- Work on the documents of a workspace. -/
abbrev Work := ExceptT Failure (StateM Session)

namespace Work

/-- A result that was reached without work. -/
def ofExcept (r : Except Failure α) : Work α := fun s => (r, s)

/-- Work on a file, and what to say when it fails. -/
def onFile (operation task : Text) (path : Path) (action : FileAction α) : Work α := fun s =>
  let (r, s) := action s
  (r.mapError (.file operation task path), s)

/-- Work on a file that leaves the choice what to do when it fails. -/
def attempt (action : FileAction α) : Work (Except Fault α) := fun s =>
  let (r, s) := action s
  (.ok r, s)

/-- Work on a file that is passed over when it is missing or no text. -/
def unlessUnusable (operation task : Text) (path : Path) (action : FileAction α) :
    Work (Option α) := do
  match ← attempt action with
  | .ok a => return some a
  | .error fault =>
    if fault.kind = .notFound || fault.kind = .invalidData then return none
    else throw (.file operation task path fault)

end Work

namespace Workspace

/-- The workspace once the communications of a task have been asked for. -/
def asked (w : Workspace) : Workspace := { w with communications := w.reread }

/-- The directory of a ticket, as the disk stands. -/
def ticket (w : Workspace) (task : Text) : StateM Session Path :=
  return w.layout.ticket (← get).disk task

/-- The file of a task's design document, as the disk stands. -/
def design (w : Workspace) (task : Text) : StateM Session Path :=
  return w.layout.design (← get).disk task

end Workspace

end DesignRecords
