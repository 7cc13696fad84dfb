import DesignRecords.Document.Listing
import DesignRecords.Text.Lowercase

namespace DesignRecords.Requirement

/-- Words that make a line a requirement. -/
def keywords : List Text := ["MUST", "SHALL", "SHOULD", "REQUIRED"]

/-- Whether one of the longest pieces of a line with only the letters `A` to `Z`, in any case, is a
keyword. -/
def isNormative (line : Text) : Bool := (line.splitOnP (!Char.isAlpha ·)).any keywords.contains

/-- What follows a number with a point and a space. -/
def numberedItem? (line : Text) : Option Text :=
  let digits := line.takeWhile Char.isDigit
  if digits.isEmpty then none else Text.after? ". " (line.drop digits.length)

/-- What follows the mark of a list item. -/
def item? (line : Text) : Option Text :=
  ((Bullet.item? line).or (Text.after? "+ " line)).or (numberedItem? line)

/-- What a line requires; `under` tells whether it stands under a heading about requirements, where
each list item counts. -/
def statement? (under : Bool) (line : Text) : Option Text :=
  if isNormative line || (under && (item? line).isSome) then
    let statement := Text.trim ((item? line).getD line)
    if statement.isEmpty then none else some statement
  else none

/-- Whether a heading line is about requirements. -/
def isTopic (line : Text) : Bool := Text.occursIn "requirement" (Text.lowercase line)

/-- What some lines require that stand in a block of code if `fenced`. -/
def ofLines (fenced under : Bool) : List Text → List Text
  | [] => []
  | line :: rest =>
    let line := line.trim
    if line.startsWith Label.fence then ofLines (!fenced) under rest
    else if fenced || line.isEmpty then ofLines fenced under rest
    else if line.startsWith "#" then ofLines fenced (isTopic line) rest
    else (statement? under line).toList ++ ofLines fenced under rest

/-- The requirements that a markdown text states. -/
def ofText (t : Text) : List Text := ofLines false false t.lines

end DesignRecords.Requirement
