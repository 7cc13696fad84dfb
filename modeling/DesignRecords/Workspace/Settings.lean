import DesignRecords.Communication.File
import DesignRecords.Workspace.Basic

namespace DesignRecords

/-- The values of named variables around the program. -/
abbrev Environment := Text → Option Text

namespace Thresholds

/-- The names of the settings in their file. -/
def settingNames : List Text := ["min_shared_terms", "min_term_length"]

/-- The number that a setting has, if it is given. -/
def setting (fields : Yaml.Fields) (name : Text) : Yaml.Visit (Option Nat) :=
  match fields.get? name with
  | none => return none
  | some n => Yaml.Visit.optional Yaml.Visit.count n

/-- The thresholds that a settings file gives; it may have no other settings. -/
def ofNode (n : Yaml.Node) : Yaml.Visit Thresholds := do
  let fields ← Yaml.Visit.fields settingNames n
  if !fields.all fun field => settingNames.contains field.1 then failure
  return {
    sharedTerms := (← setting fields "min_shared_terms").getD standard.sharedTerms
    termLength := (← setting fields "min_term_length").getD standard.termLength }

/-- The thresholds in the text of a settings file. -/
def ofText? (t : Text) : Option Thresholds :=
  if t.blank then some standard else (Yaml.Graph.ofText? t).bind (·.visit? ofNode)

/-- The count in the value of a variable. -/
def countIn? (value : Text) : Option Nat :=
  let t := value.trim
  Yaml.Number.digits? 10 ((Text.after? "+" t).getD t)

/-- The count that a variable gives in place of another one. -/
def overridden (env : Environment) (name : Text) (count : Nat) : Except Failure Nat :=
  match env name with
  | none => .ok count
  | some value =>
    match countIn? value with
    | some n => .ok n
    | none =>
      .error (.settings (name ++ " must be a non-negative integer, got '" ++ value ++ "'"))

/-- The thresholds with those that variables give in their place. -/
def withEnvironment (env : Environment) (th : Thresholds) : Except Failure Thresholds := do
  let sharedTerms ← overridden env "DOSSIER_MIN_SHARED_TERMS" th.sharedTerms
  let termLength ← overridden env "DOSSIER_MIN_TERM_LENGTH" th.termLength
  return ⟨max sharedTerms 1, max termLength 1⟩

end Thresholds

namespace Layout

/-- The thresholds in the settings file of a workspace. -/
def fileThresholds (l : Layout) (d : Disk) : Except Failure Thresholds :=
  match d.readText l.settingsFile with
  | .error fault =>
    if fault.kind = .notFound then .ok .standard
    else .error (.settings ("failed to read " ++ l.settingsFile.text ++ ": " ++ fault.message))
  | .ok t =>
    match Thresholds.ofText? t with
    | some th => .ok th
    | none => .error (.settings ("failed to parse " ++ l.settingsFile.text))

/-- The thresholds of a workspace, from its settings file and from variables. -/
def thresholds (l : Layout) (d : Disk) (env : Environment) : Except Failure Thresholds := do
  (← l.fileThresholds d).withEnvironment env

/-- The workspace at a layout, with the communications from its files. -/
def workspace (l : Layout) (th : Thresholds) (now : Instant) : Workspace :=
  { layout := l, thresholds := th, now, communications := l.communications, disturbances := .none }

end Layout

end DesignRecords
