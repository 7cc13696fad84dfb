import DesignRecords.Conflict.Requirement
import DesignRecords.Conflict.Score
import DesignRecords.Workspace.Store

namespace DesignRecords

/-- A body of recorded knowledge, and its candidates for a request. -/
structure Source where
  name : Text
  candidates : Workspace → Request → Work (List Candidate)

namespace Workspace

/-- The candidate of a decision record that holds. -/
def adrCandidate (w : Workspace) (task : Text) (p : Path) : Work (List Candidate) := do
  match ← Work.unlessUnusable "read ADR" task p (w.readAdr p) with
  | none => return []
  | some adr =>
    if adr.active then
      return [⟨.adrViolation, adr.id, adr.title, adr.title ++ "\n" ++ adr.decision⟩]
    else return []

def adrCandidates (w : Workspace) (r : Request) : Work (List Candidate) := do
  let paths ← Work.onFile "list ADR directory" r.task w.layout.decisions w.adrPaths
  gather (w.adrCandidate r.task) paths

/-- The candidates in a design document. -/
def documentCandidates (task : Text) (d : Document) : List Candidate :=
  (d.decisions.filter fun decision => !decision.decision.blank).map fun decision =>
    ⟨.previousDecision, task, decision.decision, decision.decision ++ "\n" ++ decision.rationale⟩

/-- The candidates in the design document of a task; a document that is missing or no text has
none. -/
def taskCandidates (w : Workspace) (task : Text) : Work (List Candidate) :=
  tryCatch (documentCandidates task <$> w.document task) fun failure =>
    if failure.isNotFound || failure.isInvalidData then pure [] else throw failure

/-- The decisions of all tasks but the one that asks. -/
def decisionCandidates (w : Workspace) (r : Request) : Work (List Candidate) := do
  let tasks ← .ofExcept <|
    (w.layout.tasks (← get).disk).mapError (.file "list tickets" r.task w.layout.tickets)
  gather w.taskCandidates (tasks.filter (· ≠ r.task))

/-- The pages in a directory and `depth` levels of directories below it, hidden ones left out. -/
def pages (w : Workspace) : Nat → Path → FileAction (List Path)
  | 0, _ => return []
  | depth + 1, dir => do
    if !(← w.disturbances.isDirectory dir) then return []
    let names ← w.disturbances.list dir
    gather
      (fun name => do
        let p := dir.entry name
        if ← w.disturbances.isDirectory p then w.pages depth p
        else return if p.isMarkdown then [p] else [])
      (names.filter (!Text.startsWith · "."))

/-- The pages of the wiki. The walk goes no deeper than the disk does. -/
def wikiPages (w : Workspace) : FileAction (List Path) := do
  w.pages ((← get).disk.depth + 2) w.layout.wiki

/-- The requirements on a page of the wiki. -/
def pageCandidates (w : Workspace) (task : Text) (p : Path) : Work (List Candidate) := do
  match ← Work.unlessUnusable "read wiki page" task p (w.disturbances.readText p) with
  | none => return []
  | some t =>
    return (Requirement.ofText t).map fun line =>
      ⟨.stakeholderRequirement, w.layout.relative p, line, line⟩

def wikiCandidates (w : Workspace) (r : Request) : Work (List Candidate) := do
  let pages ← Work.onFile "list wiki pages" r.task w.layout.wiki w.wikiPages
  gather (w.pageCandidates r.task) pages

end Workspace

namespace Source

/-- The decision records that hold. -/
def adrs : Source := ⟨"adrs", Workspace.adrCandidates⟩

/-- The decisions of other tasks. -/
def decisions : Source := ⟨"design decisions", Workspace.decisionCandidates⟩

/-- The requirements in the wiki. -/
def wiki : Source := ⟨"wiki", Workspace.wikiCandidates⟩

def all : List Source := [adrs, decisions, wiki]

end Source

namespace Workspace

/-- The conflicts of a request with what some sources hold. -/
def conflictsWith (w : Workspace) (sources : List Source) (r : Request) : Work (List Conflict) := do
  let proposal := w.thresholds.proposal r
  if proposal.isEmpty then return []
  return w.thresholds.conflicts proposal (← gather (fun s => s.candidates w r) sources)

/-- The conflicts of a request with all that is recorded. -/
def conflicts (w : Workspace) (r : Request) : Work (List Conflict) := w.conflictsWith Source.all r

end Workspace

end DesignRecords
