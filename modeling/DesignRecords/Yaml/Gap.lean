import DesignRecords.Yaml.Cursor

namespace DesignRecords.Yaml

/-- The spaces and line breaks between two words. -/
structure Gap where
  /-- Spaces, as long as there is no line break. -/
  spaces : Text
  broken : Bool
  /-- The first line break, if it counts. -/
  first : Text
  further : Text
deriving Repr

namespace Gap

def empty : Gap := ⟨[], false, [], []⟩

/-- A gap that starts with a line break that does not count. -/
def escaped : Gap := ⟨[], true, [], []⟩

def add (g : Gap) (c : Char) : Gap :=
  if isBreak c then
    if g.broken then { g with further := g.further ++ [c] } else ⟨[], true, [c], []⟩
  else if g.broken then g
  else { g with spaces := g.spaces ++ [c] }

/-- What a gap stands for: a single line feed for a space, and more of them for all but one. -/
def text (g : Gap) : Text :=
  if !g.broken then g.spaces
  else if g.first == ['\n'] then (if g.further.isEmpty then " " else g.further)
  else g.first ++ g.further

/-- The gap that goes on with some characters. -/
def extend (g : Gap) (t : Text) : Gap := t.foldl add g

end Gap

namespace Cursor

/-- The spaces and line breaks here. -/
def gapHere (c : Cursor) : Text := c.rest.takeWhile fun a => isSpace a || isBreak a

/-- Whether a tab stands for indentation in a gap, left of the column `indent`. -/
def hasTabIndent (indent : Int) (broken : Bool) (m : Mark) : Text → Bool
  | [] => false
  | a :: rest =>
    (broken && (m.column : Int) < indent && a = '\t') ||
      hasTabIndent indent (broken || isBreak a) (m.after a) rest

end Cursor

end DesignRecords.Yaml
