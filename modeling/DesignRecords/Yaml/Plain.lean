import DesignRecords.Yaml.Gap

namespace DesignRecords.Yaml.Plain

/-- The longest word at the start of a text that can be part of a plain scalar, `inside` brackets or
not; nothing where a colon stands in front of a bracket. -/
def word (inside : Bool) : Text → Option Text
  | [] => some []
  | a :: rest =>
    let next := rest.head?
    if isSpace a || isBreak a then some []
    else if inside && a = ':' && (next.map ",?[]\x7b\x7d".toList.contains).getD false then none
    else if a = ':' && (next.map fun b => isSpace b || isBreak b).getD true then some []
    else if inside && ",[]\x7b\x7d".toList.contains a then some []
    else (word inside rest).map (a :: ·)

/-- The rest of a plain scalar after `done` and a gap: its text, whether it ends with a new line,
and what follows. -/
def readFrom (inside : Bool) (indent : Int) :
    Nat → Text → Gap → Cursor → Option (Text × Bool × Cursor)
  | 0, _, _, _ => none
  | fuel + 1, done, gap, c => do
    if c.atDocumentMark || c.sees 0 '#' then return (done, gap.broken, c)
    let word ← word inside c.rest
    let done := if word.isEmpty then done else done ++ gap.text ++ word
    let gap := if word.isEmpty then gap else .empty
    let c := c.forward word.length
    if c.gapHere.isEmpty then return (done, gap.broken, c)
    if Cursor.hasTabIndent indent gap.broken c.mark c.gapHere then none
    let gap := gap.extend c.gapHere
    let c := c.forward c.gapHere.length
    if !inside && (c.mark.column : Int) < indent then return (done, gap.broken, c)
    readFrom inside indent fuel done gap c

/-- A plain scalar. A line that starts left of the column `indent` ends it. -/
def read? (inside : Bool) (indent : Int) (fuel : Nat) (c : Cursor) :
    Option (Text × Bool × Cursor) :=
  readFrom inside indent fuel [] .empty c

end DesignRecords.Yaml.Plain
