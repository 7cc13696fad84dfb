import DesignRecords.Command.Arguments
import DesignRecords.Conflict.Source
import DesignRecords.Document.Summary
import DesignRecords.Json

namespace DesignRecords

/-- A conflict in machine-readable form. -/
def Conflict.toJson (c : Conflict) : Json :=
  .record
    [("type".toList, .text c.kind.key), ("source".toList, .text c.source),
      ("description".toList, .text c.description),
      ("recommendation".toList, .text c.recommendation),
      ("severity".toList, .text c.kind.severity.text),
      ("matched_terms".toList, .ofTexts c.matched)]

/-- A decision in machine-readable form. -/
def Decision.toJson (d : Decision) : Json :=
  .record
    [("decision".toList, .text d.decision), ("rationale".toList, .text d.rationale),
      ("source".toList, .text d.source), ("date".toList, .ofText? (d.date.map Date.text)),
      ("adr_candidate".toList, .boolean d.candidate)]

/-- A summary in machine-readable form. -/
def Summary.toJson (s : Summary) : Json :=
  .record
    [("task_id".toList, .text s.task), ("title".toList, .text s.title),
      ("overview".toList, .ofText? s.overview), ("architecture".toList, .ofText? s.architecture),
      ("components".toList, .ofTexts s.components),
      ("decisions".toList, .list (s.decisions.map Decision.toJson)),
      ("adr_candidates".toList, .ofTexts s.candidates),
      ("requirements".toList, .ofTexts s.requirements)]

/-- Each line with a line feed behind it. -/
def printed (lines : List Text) : Text := lines.flatMap (· ++ ['\n'])

/-- A heading and some lines below it, unless there are none. -/
def listing (heading : Text) (lines : List Text) : List Text :=
  if lines.isEmpty then [] else [] :: heading :: lines.map ("  - ".toList ++ ·)

/-- A decision as it is listed. -/
def Decision.listed (d : Decision) : Text :=
  if d.candidate then d.decision ++ " " ++ Label.candidate else d.decision

/-- What a design document has to say, as it is shown. -/
def Summary.lines (s : Summary) : List Text :=
  (s.task ++ ": " ++ s.title) ::
    if s.isEmpty then ["No learnings recorded yet.".toList]
    else
      (s.overview.map fun t => [[], "Overview:".toList, "  ".toList ++ t]).getD [] ++
        (if s.components.isEmpty then []
          else [[], "Components: ".toList ++ Text.joined ", " s.components]) ++
        listing "Decisions:" (s.decisions.map Decision.listed) ++
        listing "Requirements:" s.requirements

/-- The conflicts of a task's proposal, as they are shown. -/
def conflictLines (task : Text) (cs : List Conflict) : List Text :=
  if cs.isEmpty then ["No conflicts found for " ++ task ++ "."]
  else
    (Text.ofNat 1 cs.length ++ " potential conflict(s) for " ++ task ++ ":") ::
      cs.flatMap fun c => [[], c.text]

namespace Workspace

/-- Makes a task's document and says where it is. -/
def initReport (w : Workspace) (task : Text) : Work Text := do
  let existed ← w.hasDesign task
  let _ ← w.create task
  let path := w.layout.relative (← w.design task)
  return printed [(if existed then "Design document already exists: " else "Created ") ++ path]

/-- Does what a command asks for, and gives what is to be printed. -/
def execute (w : Workspace) : Command → Work Text
  | .init task => w.initReport task
  | .display task => return (← w.document task).render
  | .update task name content => do
    let _ ← w.updateSection task name content
    return printed ["Updated " ++ Update.normalName name ++ " for " ++ task]
  | .populate task => do
    let n ← w.populate task
    return printed
      ["Populated " ++ task ++ ": " ++ Text.ofNat 1 n.requirements ++ " requirement(s), " ++
        Text.ofNat 1 n.decisions ++ " decision(s), " ++ Text.ofNat 1 n.adrs ++
        " ADR link(s) added"]
  | .diagram task => return printed [← w.diagram task]
  | .adrs task => do
    let links ← w.relatedAdrs task
    return printed (if links.isEmpty then ["No ADRs reference " ++ task ++ "."] else links)
  | .check task changes files json => do
    let cs ← w.conflicts ⟨task, changes, files.map Path.mk⟩
    return printed
      (if json then [(Json.list (cs.map Conflict.toJson)).render 0] else conflictLines task cs)
  | .learnings task json => do
    let s := (← w.document task).summary
    return printed (if json then [s.toJson.render 0] else s.lines)

end Workspace

/-- What running the program comes to. -/
inductive Outcome
  /-- The text is to be printed. -/
  | done (output : Text)
  | failed (failure : Failure)
  | misused (usage : Usage)
deriving DecidableEq, Repr

namespace Outcome

def ofExcept : Except Failure Text → Outcome
  | .ok output => .done output
  | .error failure => .failed failure

end Outcome

/-- Runs the program with some arguments on a disk, in an environment and at a time. -/
def run (env : Environment) (now : Instant) (args : List Text) (d : Disk) : Outcome × Disk :=
  match Command.parse env args with
  | .error .versionAsked => (.done Usage.versionAsked.message, d)
  | .error usage => (.misused usage, d)
  | .ok invocation =>
    let layout : Layout := ⟨invocation.root⟩
    match layout.thresholds d env with
    | .error failure => (.failed failure, d)
    | .ok th =>
      let (r, s) := (layout.workspace th now).execute invocation.command ⟨d, 0⟩
      (.ofExcept r, s.disk)

end DesignRecords
