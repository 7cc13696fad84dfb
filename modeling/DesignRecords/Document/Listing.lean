import DesignRecords.Text.Blank
import DesignRecords.Text.Line
import DesignRecords.Document.Basic
import DesignRecords.Document.Label
import DesignRecords.Document.Section

namespace DesignRecords

namespace Bullet

/-- What follows the mark of a list item. -/
def item? (line : Text) : Option Text :=
  (Text.after? "- " line).or (Text.after? "* " line)

/-- The items of a bulleted list in a section. -/
def readItems (body : Text) : List Text :=
  ((body.lines.filterMap fun line => item? (Text.trim line)).map Text.trim).filter (· ≠ [])

/-- The lines of a bulleted list. -/
def lines (items : List Text) : List Text :=
  if items.isEmpty then [Label.noItems] else items.map fun item => "- " ++ Text.singleLine item

/-- A labelled list item. -/
def field (label value : Text) : Text := "- " ++ label ++ " " ++ value

end Bullet

namespace Component

/-- The items of a list with commas between them. -/
def readList (t : Text) : List Text :=
  ((t.splitOn ',').map Text.trim).filter (· ≠ [])

def listText (items : List Text) : Text := Text.joined ", " (items.map Text.singleLine)

/-- The lines of a component. -/
def lines (c : Component) : List Text :=
  ["### " ++ Text.singleLine c.name, [], Bullet.field Label.purpose (Text.singleLine c.purpose)] ++
    (if c.interfaces.isEmpty then []
      else [Bullet.field Label.interfaces (listText c.interfaces)]) ++
    (if c.dependencies.isEmpty then []
      else [Bullet.field Label.dependencies (listText c.dependencies)]) ++ [[]]

/-- The component after one more line of its text has been read; a later line of a kind counts. -/
def withLine (c : Component) (line : Text) : Component :=
  let line := line.trim
  let item := (Bullet.item? line).getD line
  match Text.after? Label.purpose item with
  | some purpose => { c with purpose := purpose.trim }
  | none =>
    match Text.after? Label.interfaces item with
    | some interfaces => { c with interfaces := readList interfaces }
    | none =>
      match Text.after? Label.dependencies item with
      | some dependencies => { c with dependencies := readList dependencies }
      | none => c

/-- Whether a line starts a component. -/
def isHeader (line : Text) : Bool := line.startsWith "### "

/-- The components in a section; lines before the first header are passed over. -/
def readAll (body : Text) : List Component :=
  (Section.grouped isHeader body.lines).2.map fun (header, lines) =>
    lines.foldl withLine (.named (Text.trim (header.drop 4)))

end Component

end DesignRecords
