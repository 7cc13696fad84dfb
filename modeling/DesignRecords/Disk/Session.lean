import DesignRecords.Disk.Basic

namespace DesignRecords

/-- The operations on files that can be disturbed. -/
inductive Operation
  | readText
  | write
  | rename
  | removeFile
  | createDirectory
  | list
  | exists
  | isDirectory
deriving DecidableEq, Repr

/-- An operation and the path it works on; for a renaming, the path of the new name. -/
structure Call where
  operation : Operation
  path : Path
deriving DecidableEq, Repr

/-- What comes of a call that does not do its work. -/
inductive Disturbance
  | failing (fault : Fault)
  | answering (answer : Bool)
deriving DecidableEq, Repr

/-- The disturbed calls, by their number in a session. -/
abbrev Disturbances := Nat → Call → Option Disturbance

/-- A disk, and how many calls have been made on it. -/
structure Session where
  disk : Disk
  calls : Nat
deriving Repr

/-- Work on the files of a session that can fail. -/
abbrev FileAction := ExceptT Fault (StateM Session)

namespace Disturbances

/-- Nothing goes wrong. -/
def none : Disturbances := fun _ _ => .none

/-- Does the work of a call, unless the call fails. -/
def perform (ds : Disturbances) (call : Call) (work : Disk → Except Fault α × Disk) :
    FileAction α := fun s =>
  match ds s.calls call with
  | some (.failing fault) => (.error fault, { s with calls := s.calls + 1 })
  | _ => ((work s.disk).1, ⟨(work s.disk).2, s.calls + 1⟩)

/-- A change of the disk that is made in full or not at all. -/
def changed (d : Disk) : Except Fault Disk → Except Fault Unit × Disk
  | .ok new => (.ok (), new)
  | .error fault => (.error fault, d)

/-- Asks a question about a disk, unless the answer is fixed. -/
def ask (ds : Disturbances) (call : Call) (truth : Disk → Bool) : StateM Session Bool := fun s =>
  match ds s.calls call with
  | some (.answering answer) => (answer, { s with calls := s.calls + 1 })
  | _ => (truth s.disk, { s with calls := s.calls + 1 })

def readText (ds : Disturbances) (p : Path) : FileAction Text :=
  ds.perform ⟨.readText, p⟩ fun d => (d.readText p, d)

def list (ds : Disturbances) (p : Path) : FileAction (List Text) :=
  ds.perform ⟨.list, p⟩ fun d => (d.list p, d)

def write (ds : Disturbances) (p : Path) (t : Text) : FileAction Unit :=
  ds.perform ⟨.write, p⟩ fun d => changed d (d.write p (.text t))

def rename (ds : Disturbances) (source target : Path) : FileAction Unit :=
  ds.perform ⟨.rename, target⟩ fun d => changed d (d.rename source target)

def removeFile (ds : Disturbances) (p : Path) : FileAction Unit :=
  ds.perform ⟨.removeFile, p⟩ fun d => changed d (d.removeFile p)

def createDirectory (ds : Disturbances) (p : Path) : FileAction Unit :=
  ds.perform ⟨.createDirectory, p⟩ fun d => d.createDirectory p

def exists? (ds : Disturbances) (p : Path) : StateM Session Bool :=
  ds.ask ⟨.exists, p⟩ (·.exists? p)

def isDirectory (ds : Disturbances) (p : Path) : StateM Session Bool :=
  ds.ask ⟨.isDirectory, p⟩ (·.isDirectory p)

end Disturbances

end DesignRecords
