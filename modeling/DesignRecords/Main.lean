import DesignRecords.Command.Run
import DesignRecords.Disk.Tree
import Std.Time.DateTime.Timestamp

namespace DesignRecords.Program

/-- The variables that the program looks at. -/
def variableNames : List Text :=
  [Command.rootVariable, "DOSSIER_MIN_SHARED_TERMS", "DOSSIER_MIN_TERM_LENGTH"]

def environment : IO Environment := do
  let found ← variableNames.filterMapM fun name => do
    return (← IO.getEnv (String.ofList name)).map fun value => (name, value.toList)
  return fun name => found.lookup name

def now : IO Instant := do
  return .ofEpoch (← Std.Time.Timestamp.now).toNanosecondsSinceUnixEpoch.val

def pathOf (place : Place) : String := String.ofList ('/' :: Text.joined "/" place)

/-- What stands at a place of the real disk. A directory comes without its entries. -/
def entryAt (place : Place) : IO (Option Entry) := do
  match ← (IO.FS.realPath (pathOf place)).toBaseIO with
  | .error _ => return none
  | .ok path =>
    if ← path.isDir then return some (.directory [])
    else return some (.file (.ofBytes (← IO.FS.readBinFile path)))

/-- What stands at a place of the real disk, with all that is below it. -/
partial def scan (place : Place) : IO (Option Entry) := do
  match ← entryAt place with
  | some (.directory _) =>
    let path ← IO.FS.realPath (pathOf place)
    let entries ← (← path.readDir).toList.filterMapM fun e => do
      let name := e.fileName.toList
      return (← scan (place ++ [name])).map (name, ·)
    return some (.directory entries)
  | e => return e

/-- The part of the real disk that a workspace is on. -/
def snapshot (root : Path) : IO Disk := do
  let current := (Path.mk (← IO.currentDir).toString.toList).pieces.filter (· ≠ [])
  let mut disk : Disk := ⟨[], current⟩
  for n in List.range current.length do
    disk := disk.put (current.take (n + 1)) (.directory [])
  let mut place : Place := if root.absolute then [] else current
  for piece in root.pieces do
    if piece == ".." then place := place.dropLast
    else if !Path.isIdle piece then
      place := place ++ [piece]
      if (disk.lookup? place).isNone then
        if let some e ← entryAt place then disk := disk.put place e
  for name in ["tickets", "docs", ".dossier.yaml"] do
    let below := place ++ [name.toList]
    if let some e ← scan below then disk := disk.put below e
  return disk

def bytesOf : Contents → ByteArray
  | .text t => (String.ofList t).toUTF8
  | .binary bytes => ⟨bytes.toArray⟩

/-- Whether a directory stands at a place, or a file with the given contents. -/
def stands (d : Disk) (place : Place) (contents : Option Contents) : Bool :=
  match d.lookup? place, contents with
  | some (.directory _), none => true
  | some (.file c), some c' => c = c'
  | _, _ => false

/-- Makes the changes between two disks on the real one. -/
def commit (old new : Disk) : IO Unit := do
  for (place, contents) in new.places do
    if !stands old place contents then
      match contents with
      | none => IO.FS.createDirAll (pathOf place)
      | some c =>
        let staging := pathOf place ++ ".tmp"
        IO.FS.writeBinFile staging (bytesOf c)
        IO.FS.rename staging (pathOf place)
  for (place, contents) in old.places do
    if contents.isSome && (new.lookup? place).isNone then IO.FS.removeFile (pathOf place)

/-- Prints what running the program came to, and gives its exit code. -/
def report : Outcome → IO UInt32
  | .done output => do
    IO.print (String.ofList output)
    return 0
  | .failed failure => do
    IO.eprintln (String.ofList failure.message)
    return 1
  | .misused usage => do
    if usage.isInformation then
      IO.print (String.ofList usage.message)
      return 0
    else
      IO.eprint (String.ofList usage.message)
      return 1

end DesignRecords.Program

open DesignRecords in
def main (args : List String) : IO UInt32 := do
  let env ← Program.environment
  let args := args.map String.toList
  let disk ←
    match Command.parse env args with
    | .ok invocation => Program.snapshot invocation.root
    | .error _ => pure ⟨[], []⟩
  let (outcome, after) := run env (← Program.now) args disk
  Program.commit disk after
  Program.report outcome
