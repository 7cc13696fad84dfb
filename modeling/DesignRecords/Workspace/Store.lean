import DesignRecords.Adr.Listing
import DesignRecords.Document.Diagram
import DesignRecords.Document.Printer
import DesignRecords.Document.Reader
import DesignRecords.Document.Update

namespace DesignRecords

/-- How many entries of each kind were added to a document. -/
structure Additions where
  requirements : Nat
  decisions : Nat
  adrs : Nat
deriving DecidableEq, Repr

/-- Those of some items whose words are not known, nor those of an item before them. -/
def newBy (words : α → List Text) : List (List Text) → List α → List α
  | _, [] => []
  | known, a :: rest =>
    let here := words a
    if known.contains here then newBy words known rest else a :: newBy words (here :: known) rest

/-- A list followed by those of some new items that agree in their words with none before them. -/
def mergedBy (words : α → List Text) (old new : List α) : List α :=
  old ++ newBy words (old.map words) new

/-- A document with more requirements, decisions and links, each only where none with the same words
is there. -/
def Document.merged (d : Document) (requirements : List Text) (decisions : List Decision)
    (adrs : List Text) : Document :=
  { d with
    requirements := mergedBy Text.words d.requirements requirements
    decisions := mergedBy (fun decision => decision.decision.words) d.decisions decisions
    adrs := mergedBy Text.words d.adrs adrs }

/-- How many entries a document has more than another one. -/
def Additions.between (before after : Document) : Additions where
  requirements := after.requirements.length - before.requirements.length
  decisions := after.decisions.length - before.decisions.length
  adrs := after.adrs.length - before.adrs.length

namespace Workspace

/-- Whether a task has a design document. -/
def hasDesign (w : Workspace) (task : Text) : StateM Session Bool := do
  let path ← w.design task
  if !(← w.disturbances.exists? path) then return false
  return !(← w.disturbances.isDirectory path)

/-- The design document of a task. -/
def document (w : Workspace) (task : Text) : Work Document := do
  let path ← w.design task
  match ← Work.attempt (w.disturbances.readText path) with
  | .ok t => return .read task t
  | .error fault =>
    if fault.kind = .notFound then throw (.documentMissing task path)
    else throw (.file "read design document" task path fault)

/-- Writes a document in place of the one that is there, stamped with the present time. The text is
written beside it first, so that the document is replaced in full or not at all. -/
def save (w : Workspace) (d : Document) : Work Document := do
  let d := { d with updated := some w.now }
  let path ← w.design d.task
  let staging := Layout.staging path
  Work.onFile "write design document" d.task staging (w.disturbances.write staging d.render)
  match ← Work.attempt (w.disturbances.rename staging path) with
  | .ok () => return d
  | .error fault =>
    let _ ← Work.attempt (w.disturbances.removeFile staging)
    throw (.file "write design document" d.task path fault)

/-- The design document of a task, which is made if there is none. -/
def create (w : Workspace) (task : Text) : Work Document := do
  if ← w.hasDesign task then w.document task
  else
    let dir ← w.ticket task
    Work.onFile "create ticket directory" task dir (w.disturbances.createDirectory dir)
    w.save (.scaffold task)

/-- Changes the section of a task's document that a name stands for. -/
def updateSection (w : Workspace) (task name content : Text) : Work Document := do
  match Update.ofSection? name content with
  | none => throw (.unknownSection name)
  | some u => w.save (u.apply (← w.document task))

/-- The communications of a task. -/
def communicationsOf (w : Workspace) (task : Text) : Work (List Communication) := do
  .ofExcept <| (w.communications (← get).disk task).mapError (.communications task)

/-- The decisions that the communications of a task tell of. -/
def extract (w : Workspace) (task : Text) : Work (List Decision) := do
  return Communication.decisions (← w.communicationsOf task)

/-- Adds to a task's document the requirements and decisions that its communications tell of, and
the links to the decision records that came from it. -/
def populate (w : Workspace) (task : Text) : Work Additions := do
  let d ← w.document task
  let requirements := Communication.requirements (← w.communicationsOf task)
  let decisions ← w.asked.extract task
  let adrs ← w.relatedAdrs task
  let merged := d.merged requirements decisions adrs
  let _ ← w.save merged
  return .between d merged

def diagram (w : Workspace) (task : Text) : Work Text := do
  return (← w.document task).diagram

end Workspace

end DesignRecords
