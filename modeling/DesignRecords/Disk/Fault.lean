import DesignRecords.Text.Basic

namespace DesignRecords

/-- The kinds of failure that callers tell apart. -/
inductive FaultKind
  | notFound
  | permissionDenied
  | invalidData
  | alreadyExists
  | other
deriving DecidableEq, Repr

/-- Why an operation on files failed. -/
structure Fault where
  kind : FaultKind
  message : Text
deriving DecidableEq, Repr

namespace Fault

/-- A failure of which only the kind is known. -/
def ofKind : FaultKind → Fault
  | .notFound => ⟨.notFound, "entity not found"⟩
  | .permissionDenied => ⟨.permissionDenied, "permission denied"⟩
  | .invalidData => ⟨.invalidData, "invalid data"⟩
  | .alreadyExists => ⟨.alreadyExists, "entity already exists"⟩
  | .other => ⟨.other, "other error"⟩

/-- Nothing stands at a path. -/
def missing : Fault := ⟨.notFound, "No such file or directory (os error 2)"⟩

/-- Something stands where a directory is to be made. -/
def taken : Fault := ⟨.alreadyExists, "File exists (os error 17)"⟩

/-- A path leads on below a file. -/
def notDirectory : Fault := ⟨.other, "Not a directory (os error 20)"⟩

/-- A directory stands where a file is needed. -/
def isDirectory : Fault := ⟨.other, "Is a directory (os error 21)"⟩

def nameTooLong : Fault := ⟨.other, "File name too long (os error 36)"⟩

/-- A path has a character that no name may have. -/
def badName : Fault := ⟨.other, "file name contained an unexpected NUL byte"⟩

/-- A directory would come to stand below itself, or in place of one with entries. -/
def unmovable : Fault := ⟨.other, "Invalid argument (os error 22)"⟩

/-- The bytes of a file are not text. -/
def notText : Fault := ⟨.invalidData, "stream did not contain valid UTF-8"⟩

end Fault

end DesignRecords
