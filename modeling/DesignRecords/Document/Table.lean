import DesignRecords.Text.Blank
import DesignRecords.Text.Line
import DesignRecords.Document.Basic
import DesignRecords.Document.Label

namespace DesignRecords

namespace Table

/-- A text as it stands in a cell: on one line, with a backslash before each bar. -/
def escaped (t : Text) : Text := Text.replaced '|' "\\|" (Text.singleLine t)

/-- A row with the given cell texts. -/
def row (cells : List Text) : Text :=
  "| " ++ Text.joined " | " cells ++ " |"

/-- The pieces between the bars of a row; a bar after a backslash is part of its piece. -/
def pieces : Text → List Text
  | [] => [[]]
  | '\\' :: '|' :: rest => (pieces rest).modifyHead ('|' :: ·)
  | '|' :: rest => [] :: pieces rest
  | c :: rest => (pieces rest).modifyHead (c :: ·)

/-- The trimmed cells of a row; what follows the last bar is a cell unless it is blank. -/
def cells (line : Text) : List Text :=
  let all := pieces ((Text.after? "|" line).getD line)
  all.dropLast.map Text.trim ++ ((all.getLast?.filter (!Text.blank ·)).map Text.trim).toList

/-- A cell of the line that separates a table's header from its rows. -/
def isRule (cell : Text) : Bool :=
  cell.contains '-' && cell.all fun c => c == '-' || c == ':'

end Table

namespace Decision

/-- The source cell of a decision. -/
def sourceCell (d : Decision) : Text :=
  let source := Table.escaped d.source
  if !d.candidate then source
  else if source.isEmpty then Label.candidate
  else source ++ " " ++ Label.candidate

/-- The row of a decision in the table of decisions. -/
def row (d : Decision) : Text :=
  Table.row [Table.escaped d.decision, Table.escaped d.rationale, d.sourceCell,
    (d.date.map Date.text).getD []]

/-- The decision in a row of the table; rules, rows with fewer than four cells and rows without a
decision hold none. -/
def ofCells? (cells : List Text) : Option Decision :=
  if cells.all Table.isRule then none
  else
    match cells with
    | decision :: rationale :: source :: date :: _ =>
      if decision.isEmpty then none
      else
        match Text.before? Label.candidate source with
        | some source => some ⟨decision, rationale, source.trimEnd, Date.read? date, true⟩
        | none => some ⟨decision, rationale, source, Date.read? date, false⟩
    | _ => none

/-- The decisions in the table of a section; the first row is the table's header. -/
def readTable (body : Text) : List Decision :=
  let rows := (body.lines.map Text.trim).filter (Text.startsWith · "|")
  (rows.drop 1).filterMap fun line => ofCells? (Table.cells line)

end Decision

end DesignRecords
