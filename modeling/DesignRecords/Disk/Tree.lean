import DesignRecords.Disk.Basic

namespace DesignRecords

namespace Entry

mutual

/-- The places of an entry and of all that is below it, with the contents of files. -/
def places (place : Place) : Entry → List (Place × Option Contents)
  | file c => [(place, some c)]
  | directory entries => (place, none) :: placesIn place entries

def placesIn (place : Place) : List (Text × Entry) → List (Place × Option Contents)
  | [] => []
  | (name, e) :: rest => e.places (place ++ [name]) ++ placesIn place rest

end

end Entry

namespace Disk

/-- All places of a disk below its root, with the contents of files. -/
def places (d : Disk) : List (Place × Option Contents) := Entry.placesIn [] d.entries

/-- The paths of all that lies below a place, in increasing order, a slash after each directory. -/
def tree (d : Disk) (top : Place) : List Text :=
  match d.lookup? top with
  | some (.directory entries) =>
    increasing <| (Entry.placesIn [] entries).map fun (place, contents) =>
      Text.joined "/" place ++ (if contents.isNone then "/".toList else [])
  | _ => []

/-- Removes a file, or a directory with all that is in it. -/
def remove (d : Disk) (p : Path) : Except Fault Disk := do
  let (place, _) ← d.find p
  return d.erase place

/-- Makes a file and the directories above it that are missing. -/
def writeDeep (d : Disk) (p : Path) (c : Contents) : Except Fault Disk := do
  let d ←
    match p.parent? with
    | none => pure d
    | some dir =>
      match d.createDirectory dir with
      | (.ok (), d) => pure d
      | (.error e, _) => throw e
  d.write p c

/-- Moves a file or a directory to the end of another path. A file takes the place of a file, a
directory that of a directory without entries. -/
def move (d : Disk) (source target : Path) : Except Fault Disk := do
  let (place, e) ← d.find source
  let (goal, there) ← d.resolve target
  if place = goal then return d
  match e, there with
  | .file _, some (.directory _) => throw .isDirectory
  | .file _, _ => return d.shift place goal e
  | .directory _, some (.file _) => throw .notDirectory
  | .directory _, some (.directory entries) =>
    if place.isPrefixOf goal || !entries.isEmpty then throw .unmovable
    return d.shift place goal e
  | .directory _, none =>
    if place.isPrefixOf goal then throw .unmovable
    return d.shift place goal e

end Disk

end DesignRecords
