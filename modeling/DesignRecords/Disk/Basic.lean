import DesignRecords.Text.Increasing
import DesignRecords.Path
import DesignRecords.Disk.Fault

namespace DesignRecords

/-- What a file holds. -/
inductive Contents
  | text (t : Text)
  | binary (bytes : List UInt8)
deriving DecidableEq, Repr

/-- Bytes are text where they are valid UTF-8. -/
def Contents.ofBytes (bytes : ByteArray) : Contents :=
  match String.fromUTF8? bytes with
  | some s => .text s
  | none => .binary bytes.toList

/-- What stands at a place of a disk. -/
inductive Entry
  | file (contents : Contents)
  | directory (entries : List (Text × Entry))
deriving Repr

/-- A place on a disk as the names that lead to it from the root. -/
abbrev Place := List Text

namespace Entry

/-- What stands under a name in a directory. -/
def child? (e : Entry) (name : Text) : Option Entry :=
  match e with
  | file _ => none
  | directory entries => entries.lookup name

/-- A directory with its entries changed. -/
def mapEntries (f : List (Text × Entry) → List (Text × Entry)) : Entry → Entry
  | file c => file c
  | directory entries => directory (f entries)

/-- What stands at a place below an entry. -/
def below? : Place → Entry → Option Entry
  | [], e => some e
  | name :: rest, e => (e.child? name).bind (below? rest)

/-- The entries of a directory with `e` at a place below it, or with nothing there. -/
def setBelow (e : Option Entry) : Place → List (Text × Entry) → List (Text × Entry)
  | [], entries => entries
  | [name], entries => (e.map (name, ·)).toList ++ entries.filter (·.1 ≠ name)
  | name :: next :: rest, entries =>
    entries.map fun a =>
      if a.1 = name then (a.1, a.2.mapEntries (setBelow e (next :: rest))) else a

mutual

/-- The number of levels below an entry. -/
def depth : Entry → Nat
  | file _ => 0
  | directory entries => depthOf entries

def depthOf : List (Text × Entry) → Nat
  | [] => 0
  | (_, e) :: rest => max (e.depth + 1) (depthOf rest)

end

end Entry

/-- A tree of directories and files, and the directory that relative paths start from. -/
structure Disk where
  /-- The entries of the root. -/
  entries : List (Text × Entry)
  current : Place
deriving Repr

namespace Disk

/-- A disk with one empty directory, the current one, below the root. -/
def empty (current : Text) : Disk := ⟨[(current, .directory [])], [current]⟩

def root (d : Disk) : Entry := .directory d.entries

/-- What stands at a place. -/
def lookup? (d : Disk) (place : Place) : Option Entry := d.root.below? place

/-- The disk with `e` at a place in a directory. -/
def put (d : Disk) (place : Place) (e : Entry) : Disk :=
  { d with entries := Entry.setBelow (some e) place d.entries }

/-- The disk without what stands at a place and below it. -/
def erase (d : Disk) (place : Place) : Disk :=
  { d with entries := Entry.setBelow none place d.entries }

/-- The names of the entries of a directory, in increasing order. -/
def names (entries : List (Text × Entry)) : List Text := increasing (entries.map (·.1))

/-- The number of names that lead to the deepest place. -/
def depth (d : Disk) : Nat := d.root.depth

/-- Whether a name has more bytes than a disk takes. -/
def isNameTooLong (name : Text) : Bool := 255 < Text.byteCount name

/-- Whether a path has more bytes than a disk takes. -/
def isPathTooLong (p : Path) : Bool := 4095 < Text.byteCount p.text

/-- The names on the way from the root to a place, the last one first, each with what stands there,
if anything does. -/
abbrev Trail := List (Text × Option Entry)

/-- What stands at the end of a trail. -/
def atEnd (d : Disk) : Trail → Option Entry
  | [] => some d.root
  | (_, e) :: _ => e

/-- The place that a trail leads to. -/
def placeOf (trail : Trail) : Place := (trail.map (·.1)).reverse

/-- The trail that goes on with a name. -/
def extend (d : Disk) (trail : Trail) (name : Text) : Trail :=
  (name, (d.atEnd trail).bind (·.child? name)) :: trail

/-- The trail to a place. -/
def trailTo (d : Disk) (place : Place) : Trail := place.foldl d.extend []

/-- One step along a path. What the step leads to need not be there, but each step starts from a
directory. -/
def step (d : Disk) (trail : Trail) (piece : Text) : Except Fault Trail :=
  match d.atEnd trail with
  | none => .error .missing
  | some (.file _) => .error .notDirectory
  | some (.directory _) =>
    if Path.isIdle piece then .ok trail
    else if piece == ".." then .ok trail.tail
    else if isNameTooLong piece then .error .nameTooLong
    else .ok (d.extend trail piece)

/-- Why a path cannot be followed on any disk, if that is so. -/
def checked (p : Path) : Except Fault Unit :=
  if p.text.contains '\x00' then .error .badName
  else if p.text.isEmpty then .error .missing
  else if isPathTooLong p then .error .nameTooLong
  else .ok ()

/-- The trail along a path. -/
def walk (d : Disk) (p : Path) : Except Fault Trail := do
  checked p
  p.pieces.foldlM d.step (if p.absolute then [] else d.trailTo d.current)

/-- The place that a path leads to, and what stands there. -/
def resolve (d : Disk) (p : Path) : Except Fault (Place × Option Entry) := do
  let trail ← d.walk p
  return (placeOf trail, d.atEnd trail)

/-- What stands at the end of a path. -/
def find (d : Disk) (p : Path) : Except Fault (Place × Entry) := do
  match ← d.resolve p with
  | (_, none) => .error .missing
  | (place, some e) => .ok (place, e)

def exists? (d : Disk) (p : Path) : Bool := (d.find p).isOk

def isDirectory (d : Disk) (p : Path) : Bool :=
  match d.find p with
  | .ok (_, .directory _) => true
  | _ => false

/-- The text of a file. -/
def readText (d : Disk) (p : Path) : Except Fault Text := do
  match ← d.find p with
  | (_, .directory _) => .error .isDirectory
  | (_, .file (.text t)) => .ok t
  | (_, .file (.binary _)) => .error .notText

/-- The names in a directory, in increasing order. -/
def list (d : Disk) (p : Path) : Except Fault (List Text) := do
  match ← d.find p with
  | (_, .directory entries) => .ok (names entries)
  | (_, .file _) => .error .notDirectory

/-- Writes a file, in place of a file that stands there. -/
def write (d : Disk) (p : Path) (c : Contents) : Except Fault Disk := do
  match ← d.resolve p with
  | (_, some (.directory _)) => .error .isDirectory
  | (place, _) => .ok (d.put place (.file c))

/-- A path without the slashes at its end. -/
def withoutEndSlashes (p : Path) : Path :=
  let text := (p.text.reverse.dropWhile (· == '/')).reverse
  if text.isEmpty then p else ⟨text⟩

def makeDirectory (d : Disk) (p : Path) : Except Fault Disk := do
  checked p
  match ← d.resolve (withoutEndSlashes p) with
  | (_, some _) => .error .taken
  | (place, none) => .ok (d.put place (.directory []))

/-- Makes the first of some directories, of which each lies in the next. Those outside it are made
when they are missing; those made stay when one of the others cannot be made. -/
def makeDirectories (d : Disk) : List Path → Except Fault Unit × Disk
  | [] => (.ok (), d)
  | p :: outer =>
    let settle (d : Disk) (e : Fault) : Except Fault Unit × Disk :=
      if e.kind = .alreadyExists && d.isDirectory p then (.ok (), d) else (.error e, d)
    match d.makeDirectory p with
    | .ok d => (.ok (), d)
    | .error e =>
      if e.kind = .notFound then
        match d.makeDirectories outer with
        | (.error e, d) => (.error e, d)
        | (.ok (), d) =>
          match d.makeDirectory p with
          | .ok d => (.ok (), d)
          | .error e => settle d e
      else settle d e

/-- Makes a directory and those above it that are missing. -/
def createDirectory (d : Disk) (p : Path) : Except Fault Unit × Disk :=
  d.makeDirectories p.ancestors

/-- Removes a file. -/
def removeFile (d : Disk) (p : Path) : Except Fault Disk := do
  match ← d.find p with
  | (_, .directory _) => .error .isDirectory
  | (place, .file _) => .ok (d.erase place)

/-- The disk with `e`, which stands at `place`, at `goal` instead. -/
def shift (d : Disk) (place goal : Place) (e : Entry) : Disk := (d.erase place).put goal e

/-- Moves a file to the end of another path, in place of a file that stands there. -/
def rename (d : Disk) (source target : Path) : Except Fault Disk := do
  let (place, e) ← d.find source
  let (goal, there) ← d.resolve target
  match e, there with
  | .directory _, _ => .error .isDirectory
  | .file _, some (.directory _) => .error .isDirectory
  | .file _, _ => .ok (d.shift place goal e)

end Disk

end DesignRecords
