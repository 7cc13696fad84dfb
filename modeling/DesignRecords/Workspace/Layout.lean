import DesignRecords.Path

namespace DesignRecords

/-- Where the documents of a workspace stand. -/
structure Layout where
  root : Path
deriving DecidableEq, Repr

namespace Layout

/-- The directory of the tickets that are being worked on. -/
def tickets (l : Layout) : Path := l.root.entry "tickets"

/-- The name of the directory among the tickets that holds those put away. -/
def archiveName : Text := "archive"

def archive (l : Layout) : Path := l.tickets.entry archiveName

/-- The directory of the decision records. -/
def decisions (l : Layout) : Path := (l.root.entry "docs").entry "decisions"

def wiki (l : Layout) : Path := (l.root.entry "docs").entry "wiki"

def settingsFile (l : Layout) : Path := l.root.entry ".dossier.yaml"

/-- A path as it reads from the root; a path that leads elsewhere stays as it is. -/
def relative (l : Layout) (p : Path) : Text :=
  match l.root.below? p with
  | some parts => Path.ofParts parts
  | none => p.text

/-- The parts of a path below the root, or all of them for a path that leads elsewhere. -/
def partsBelow (l : Layout) (p : Path) : List Path.Part := (l.root.below? p).getD p.parts

/-- What is left of two lists without the beginning that they share. -/
def withoutShared [DecidableEq α] : List α → List α → List α × List α
  | a :: as, b :: bs => if a = b then withoutShared as bs else (a :: as, b :: bs)
  | as, bs => (as, bs)

/-- The link from a directory to a target: up to the directory that both are in, then down. -/
def link (l : Layout) (start target : Path) : Text :=
  let (up, down) := withoutShared (l.partsBelow start) (l.partsBelow target)
  Path.ofParts (up.map (fun _ => .up) ++ down)

end Layout

end DesignRecords
