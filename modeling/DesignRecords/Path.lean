import DesignRecords.Text.Basic

namespace DesignRecords

/-- A path as written, with slashes between its pieces. -/
structure Path where
  text : Text
deriving DecidableEq, Repr

namespace Path

/-- A part of a path. A dot counts only at the start of a path. -/
inductive Part
  | root
  | here
  | up
  | name (n : Text)
deriving DecidableEq, Repr

def Part.text : Part → Text
  | root => "/"
  | here => "."
  | up => ".."
  | name n => n

def absolute (p : Path) : Bool := p.text.startsWith "/"

/-- What stands between the slashes of a path. -/
def pieces (p : Path) : List Text := p.text.splitOn '/'

/-- A piece that leads nowhere. -/
def isIdle (piece : Text) : Bool := piece == [] || piece == "."

def partOfPiece? (piece : Text) : Option Part :=
  if isIdle piece then none else if piece == ".." then some .up else some (.name piece)

/-- The parts of a path. Two paths with the same parts lead to the same place. -/
def parts (p : Path) : List Part :=
  (if p.absolute then [.root] else if p.pieces.head? == some ".".toList then [.here] else []) ++
    p.pieces.filterMap partOfPiece?

def ofParts (parts : List Part) : Text := Text.joined "/" (parts.map Part.text)

/-- The path that `q` denotes when it is read from `p`. -/
def join (p q : Path) : Path :=
  if q.absolute || p.text.isEmpty then q
  else if p.text.endsWith "/" then ⟨p.text ++ q.text⟩
  else ⟨p.text ++ "/" ++ q.text⟩

/-- The path of an entry of `p`. -/
def entry (p : Path) (name : Text) : Path := p.join ⟨name⟩

/-- The beginning of a path that no parent loses: a slash, or the dot it starts with. -/
def lead (p : Path) : Text :=
  if p.absolute then "/" else if p.pieces.head? == some ".".toList then "." else []

/-- The path without its last part; nothing for the root and for the empty path. -/
def parent? (p : Path) : Option Path :=
  let lead := p.lead
  match ((p.text.drop lead.length).splitOn '/').reverse.dropWhile isIdle with
  | [] => if lead == "." then some ⟨[]⟩ else none
  | _ :: before => some ⟨lead ++ Text.joined "/" (before.dropWhile isIdle).reverse⟩

/-- The path and the paths above it, from the inside out, as many as `steps` allow. -/
def upward : Nat → Path → List Path
  | 0, _ => []
  | steps + 1, p =>
    match p.parent? with
    | none => []
    | some q => p :: upward steps q

/-- The path and the paths above it that name directories, from the inside out. A parent is
shorter than its path, so that the length of the text bounds their number. -/
def ancestors (p : Path) : List Path := upward p.text.length p

/-- The last part of a path, if it is a name. -/
def fileName? (p : Path) : Option Text :=
  match p.parts.getLast? with
  | some (.name n) => some n
  | _ => none

/-- A file name up to its last dot and after it. A dot at the start of a name is part of it. -/
def splitName (name : Text) : Text × Option Text :=
  match (name.splitOn '.').reverse with
  | extension :: piece :: pieces =>
    let stem := Text.joined "." (piece :: pieces).reverse
    if stem.isEmpty then (name, none) else (stem, some extension)
  | _ => (name, none)

/-- The file name without its extension. -/
def stem? (p : Path) : Option Text := p.fileName?.map fun name => (splitName name).1

def extension? (p : Path) : Option Text := p.fileName?.bind fun name => (splitName name).2

/-- The path of another file beside the file of a path. -/
def sibling (p : Path) (name : Text) : Path := (p.parent?.getD p).entry name

/-- The parts of `p` below `base`. -/
def below? (base p : Path) : Option (List Part) := base.parts.isPrefixOf? p.parts

/-- Whether two paths have the same parts. -/
def same (p q : Path) : Bool := p.parts == q.parts

/-- Whether the name of a file ends in `.md`, in any case. -/
def isMarkdown (p : Path) : Bool := (p.extension?.map (Text.sameIgnoringCase "md")).getD false

end Path

end DesignRecords
