import DesignRecords.Text.Blank
import DesignRecords.Text.Line
import DesignRecords.Document.Label

namespace DesignRecords

/-- A section of a markdown text: what its header line says, and the lines below it. -/
structure Section where
  header : Text
  body : Text
deriving DecidableEq, Repr

namespace Section

/-- Whether a line starts a section, fences aside. -/
def isHeader (line : Text) : Bool := line.startsWith "## "

def isFence (line : Text) : Bool := line.trimStart.startsWith Label.fence

/-- A fence line that names no language; only such a line closes a block. -/
def isBareFence (line : Text) : Bool := line.trim == Label.fence

/-- The number of lines to the end of a fenced block whose first line has been passed. A block that
meets a fence with a language first is never closed. -/
def fencedLines? : List Text → Option Nat
  | [] => none
  | line :: rest =>
    if isFence line then (if isBareFence line then some 1 else none)
    else (fencedLines? rest).map (· + 1)

/-- Where in a document a line stands. -/
inductive Place where
  /-- Before the first section. -/
  | preamble
  /-- In a section of which only blank lines have been seen. -/
  | opening
  /-- In the fenced block that opens a section, `left` lines before its end. -/
  | fenced (left : Nat)
  /-- Anywhere else in a section. -/
  | prose
deriving DecidableEq, Repr

/-- Each line with the mark whether it starts a section, the first line standing at `place`. Only a
closed block at the very start of a section hides headers. -/
def marked : Place → List Text → List (Bool × Text)
  | _, [] => []
  | .fenced (left + 1), line :: rest => (false, line) :: marked (.fenced left) rest
  | place, line :: rest =>
    if isHeader line then (true, line) :: marked .opening rest
    else if place = .opening && !line.blank then
      match if isFence line then fencedLines? rest else none with
      | some left => (false, line) :: marked (.fenced left) rest
      | none => (false, line) :: marked .prose rest
    else (false, line) :: marked place rest

/-- The items before the first one that is a head, and each head with the items up to the next. -/
def grouped (isHead : α → Bool) : List α → List α × List (α × List α)
  | [] => ([], [])
  | a :: rest =>
    let (front, groups) := grouped isHead rest
    if isHead a then ([], (a, front) :: groups) else (a :: front, groups)

/-- The section with the given header line and body lines. -/
def ofLines (header : Text) (body : List Text) : Section :=
  ⟨Text.trim (header.drop 3), Text.trim (Text.ofLines body)⟩

/-- The text before the first section, and the sections. -/
def split (t : Text) : Text × List Section :=
  let (front, groups) := grouped (·.1) (marked .preamble t.lines)
  (Text.ofLines (front.map (·.2)), groups.map fun (head, body) => ofLines head.2 (body.map (·.2)))

/-- The body of the first section with a name, in any case of letters; blank where there is none. -/
def bodyOf (sections : List Section) (name : Text) : Text :=
  ((sections.find? fun s => Text.sameIgnoringCase s.header name).map (·.body)).getD []

end Section

end DesignRecords
