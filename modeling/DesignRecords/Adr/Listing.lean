import DesignRecords.Adr.Basic
import DesignRecords.Workspace.Basic

namespace DesignRecords.Workspace

/-- The path, unless it names a directory. -/
def unlessDirectory (w : Workspace) (p : Path) : FileAction (List Path) := do
  return if ← w.disturbances.isDirectory p then [] else [p]

/-- The files of the decision records in order of their names; none where their directory is
missing. -/
def adrPaths (w : Workspace) : FileAction (List Path) := do
  let dir := w.layout.decisions
  if !(← w.disturbances.isDirectory dir) then return []
  let names ←
    tryCatch (w.disturbances.list dir) fun fault =>
      if fault.kind = .notFound then pure [] else throw fault
  gather w.unlessDirectory ((names.filter fun name => (Path.mk name).isMarkdown).map dir.entry)

def readAdr (w : Workspace) (p : Path) : FileAction Adr := do
  return .read p (← w.disturbances.readText p)

/-- The link from a ticket to a decision record. -/
def adrLink (w : Workspace) (ticket : Path) (adr : Adr) : Text :=
  "[" ++ adr.id ++ "](" ++ w.layout.link ticket adr.path ++ ")"

/-- The link to the record at a path if it came from a task; a file that cannot be read has none. -/
def linkTo (w : Workspace) (task : Text) (ticket p : Path) : Work (List Text) := do
  match ← Work.attempt (w.readAdr p) with
  | .error _ => return []
  | .ok adr => return if adr.source = some task then [w.adrLink ticket adr] else []

/-- The links from a task's ticket to the decision records that came from the task. -/
def relatedAdrs (w : Workspace) (task : Text) : Work (List Text) := do
  let paths ← Work.onFile "list ADR directory" task w.layout.decisions w.adrPaths
  gather (w.linkTo task (← w.ticket task)) paths

end DesignRecords.Workspace
