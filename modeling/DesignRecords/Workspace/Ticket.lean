import DesignRecords.Disk.Basic
import DesignRecords.Workspace.Layout

namespace DesignRecords.Layout

/-- The directory of a ticket: the active one if there is one, else the archived one if there is
one, else the active one that would be made. -/
def ticket (l : Layout) (d : Disk) (task : Text) : Path :=
  let active := l.tickets.entry task
  let archived := l.archive.entry task
  if d.isDirectory active then active else if d.isDirectory archived then archived else active

/-- The visible directories in a directory; a directory that is not there has none. -/
def visibleDirectories (d : Disk) (dir : Path) : Except Fault (List Text) :=
  match d.list dir with
  | .ok names =>
    .ok (names.filter fun name => d.isDirectory (dir.entry name) && !Text.startsWith name ".")
  | .error e => if e.kind = .notFound then .ok [] else .error e

/-- The tasks that have a ticket, active or archived, in increasing order. -/
def tasks (l : Layout) (d : Disk) : Except Fault (List Text) := do
  let active ← visibleDirectories d l.tickets
  let archived ← visibleDirectories d l.archive
  return increasing (active.filter (· ≠ archiveName) ++ archived)

/-- The file of a task's design document. -/
def design (l : Layout) (d : Disk) (task : Text) : Path := (l.ticket d task).entry "design.md"

/-- The file in which a design document is written before it takes its place. -/
def staging (design : Path) : Path := design.sibling "design.md.tmp"

end DesignRecords.Layout
