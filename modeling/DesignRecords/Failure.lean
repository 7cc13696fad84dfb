import DesignRecords.Path
import DesignRecords.Disk.Fault

namespace DesignRecords

/-- Why work on design documents failed. -/
inductive Failure
  /-- A task has no design document. -/
  | documentMissing (task : Text) (path : Path)
  /-- An operation on a file failed; its name completes "Failed to". -/
  | file (operation task : Text) (path : Path) (fault : Fault)
  | unknownSection (name : Text)
  /-- The communications of a task cannot be had. -/
  | communications (task reason : Text)
  | settings (reason : Text)
deriving DecidableEq, Repr

namespace Failure

def message : Failure → Text
  | documentMissing task path =>
    "Design document for task " ++ task ++ " not found at '" ++ path.text ++ "'"
  | file operation task path fault =>
    "Failed to " ++ operation ++ " for task " ++ task ++ " at '" ++ path.text ++ "': " ++
      fault.message
  | unknownSection name =>
    "Unknown design section '" ++ name ++
      "' (expected overview, architecture, decisions, or components)"
  | communications task reason =>
    "Communication store error for task " ++ task ++ ": " ++ reason
  | settings reason => "Configuration error: " ++ reason

/-- Whether something that is not there is the cause. -/
def isNotFound : Failure → Bool
  | documentMissing _ _ => true
  | file _ _ _ fault => fault.kind = .notFound
  | _ => false

/-- Whether a file that is not text is the cause. -/
def isInvalidData : Failure → Bool
  | file _ _ _ fault => fault.kind = .invalidData
  | _ => false

end Failure

end DesignRecords
