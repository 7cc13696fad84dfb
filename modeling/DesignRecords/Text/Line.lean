import DesignRecords.Text.Basic

namespace DesignRecords.Text

/-- A line without the carriage return that stands at its end. -/
def dropReturn (line : Text) : Text := (Text.before? ['\r'] line).getD line

/-- The lines among the pieces between line feeds: each piece that a line feed ends loses one
carriage return, and an empty last piece is no line. -/
def linesOfPieces : List Text → List Text
  | [] => []
  | [last] => if last = [] then [] else [last]
  | piece :: rest => dropReturn piece :: linesOfPieces rest

/-- The lines of a text, ended by a line feed or by a carriage return and a line feed. -/
def lines (t : Text) : List Text := linesOfPieces (t.splitOn '\n')

/-- Lines put together with a line feed between each two. -/
def ofLines (ls : List Text) : Text := joined ['\n'] ls

/-- The text on one line: each carriage return and each line feed becomes a space. -/
def singleLine (t : Text) : Text := t.map fun c => if c = '\r' || c = '\n' then ' ' else c

end DesignRecords.Text
