import DesignRecords.Command.Basic
import DesignRecords.Workspace.Settings

namespace DesignRecords

/-- What an option does. -/
inductive OptionKind
  /-- Has a value. -/
  | valued
  /-- Has a path as its value, which may not be empty. -/
  | path
  /-- Has a value and may be given more than once. -/
  | listed
  | flag
  | help
  | version
deriving DecidableEq, Repr

/-- The options and other arguments that may stand behind the program's or a command's name. -/
structure Level where
  options : List (Text × OptionKind)
  /-- The commands that may follow. -/
  commands : List Text
  takesTask : Bool

/-- The arguments of a level that have been read. -/
structure Arguments where
  /-- The options and their values. -/
  given : List (Text × Text)
  /-- The last option with its value, if it has been read, as long as it has not been looked at. -/
  pending : Option (Text × OptionKind × Option Text)
  task : Option Text

namespace Arguments

def empty : Arguments := ⟨[], none, none⟩

/-- The values of an option. -/
def values (r : Arguments) (name : Text) : List Text :=
  (r.given.filter (·.1 == name)).map (·.2)

def value? (r : Arguments) (name : Text) : Option Text := (r.values name).head?

def has (r : Arguments) (name : Text) : Bool := !(r.values name).isEmpty

/-- Takes note of an option. -/
def record (r : Arguments) (name : Text) (kind : OptionKind) (value : Text) :
    Except Usage Arguments :=
  if kind ≠ .listed && r.has name then .error .repeatedOption
  else if kind = .path && value.isEmpty then .error .invalidValue
  else .ok { r with given := r.given ++ [(name, value)] }

/-- Looks at the last option. -/
def settled (r : Arguments) : Except Usage Arguments :=
  match r.pending with
  | none => .ok r
  | some (_, _, none) => .error .invalidValue
  | some (name, kind, some value) => ({ r with pending := none } : Arguments).record name kind value

/-- The option that waits for its value. -/
def waiting? (r : Arguments) : Option (Text × OptionKind) :=
  match r.pending with
  | some (name, kind, none) => some (name, kind)
  | _ => none

end Arguments

namespace Level

/-- An option in its long form, without the hyphens. -/
def readLong (l : Level) (r : Arguments) (body : Text) : Except Usage Arguments :=
  let name := body.takeWhile (· ≠ '=')
  let value := (body.drop name.length).tail?
  match l.options.lookup name with
  | none => .error .unknownArgument
  | some kind =>
    if kind = .flag || kind = .help || kind = .version then
      if value.isSome then .error .extraValue
      else do
        let r ← r.settled
        if kind = .help then .error .helpAsked
        else if kind = .version then .error .versionAsked
        else r.record name kind []
    else do
      let r ← r.settled
      match value with
      | some value => r.record name kind value
      | none => .ok { r with pending := some (name, kind, none) }

/-- An option in its short form, without the hyphen. There are two, and none of them lets another one
follow. -/
def readShort (l : Level) (r : Arguments) (body : Text) : Usage :=
  let kind := if body.head? = some 'h' then OptionKind.help else .version
  let known := body.head? = some 'h' || (body.head? = some 'V' && l.options.any (·.2 = .version))
  if !known then .unknownArgument
  else
    match r.settled with
    | .error u => u
    | .ok _ => if kind = .help then .helpAsked else .versionAsked

/-- An argument that is no option; `literal` tells whether it stands behind two hyphens. -/
def readPlace (l : Level) (literal : Bool) (r : Arguments) (a : Text) : Except Usage Arguments :=
  if l.takesTask && r.task.isNone then do
    let r ← r.settled
    return { r with task := some a }
  else if l.commands.isEmpty || (literal && l.commands.contains a) then .error .unknownArgument
  else .error .unknownCommand

/-- The arguments of a level, up to a command; then its name and what follows. Behind two hyphens no
argument is an option or a command. -/
def read (l : Level) : Bool → Arguments → List Text →
    Except Usage (Arguments × Option (Text × List Text))
  | _, r, [] => .ok (r, none)
  | literal, r, a :: rest =>
    if literal then do l.read true (← l.readPlace true r a) rest
    else if r.waiting?.isNone && l.commands.contains a then .ok (r, some (a, rest))
    else if a == "--" then l.read true r rest
    else
      match Text.after? "--" a, Text.after? "-" a, r.waiting? with
      | some body, _, _ => do l.read false (← l.readLong r body) rest
      | none, some (c :: body), _ => .error (l.readShort r (c :: body))
      | none, _, some (name, kind) =>
        l.read false { r with pending := some (name, kind, some a) } rest
      | none, _, none => do l.read false (← l.readPlace false r a) rest

end Level

namespace Command

/-- The name of the option for the workspace. -/
def rootOption : Text := "root"

/-- The options of all commands. -/
def commonOptions : List (Text × OptionKind) := [(rootOption, .path), ("help".toList, .help)]

/-- The names of the commands with their own options. -/
def table : List (Text × List (Text × OptionKind)) :=
  [("init".toList, []),
    ("show".toList, []),
    ("update".toList, [("section".toList, .valued), ("content".toList, .valued)]),
    ("populate".toList, []),
    ("diagram".toList, []),
    ("adrs".toList, []),
    ("check".toList, [("changes".toList, .valued), ("file".toList, .listed), ("json".toList, .flag)]),
    ("learnings".toList, [("json".toList, .flag)])]

/-- The name of the command that explains the others. -/
def helpName : Text := "help"

/-- The names that may stand in the place of a command. -/
def names : List Text := table.map (·.1) ++ [helpName]

def topLevel : Level :=
  ⟨commonOptions ++ [("version".toList, .version)], names, false⟩

def level (options : List (Text × OptionKind)) : Level := ⟨commonOptions ++ options, [], true⟩

/-- The command of a name with its arguments, unless one that it needs is missing. -/
def ofArguments? (name : Text) (r : Arguments) : Option Command := do
  let task ← r.task
  match String.ofList name with
  | "init" => return init task
  | "show" => return display task
  | "update" => return update task (← r.value? "section") (← r.value? "content")
  | "populate" => return populate task
  | "diagram" => return diagram task
  | "adrs" => return adrs task
  | "check" => return check task (← r.value? "changes") (r.values "file") (r.has "json")
  | "learnings" => return learnings task (r.has "json")
  | _ => none

/-- The variable that names the workspace where no option does. -/
def rootVariable : Text := "DOSSIER_ROOT"

/-- Fails where the workspace would be named by a variable without a value. -/
def checkVariable (env : Environment) (r : Arguments) : Except Usage Unit :=
  if !r.has rootOption && env rootVariable = some [] then .error .invalidValue else .ok ()

/-- What comes of asking for help on some names: there is help on one command, or on all. -/
def helpOn : List Text → Usage
  | [] => .helpAsked
  | [name] => if names.contains name then .helpAsked else .unknownCommand
  | _ => .unknownCommand

/-- What comes of arguments without a command. -/
def withoutCommand (env : Environment) (top : Arguments) : Except Usage Unit := do
  let top ← top.settled
  checkVariable env top
  if top.given.isEmpty && (env rootVariable).isNone then .error .nothingGiven
  else .error .missingCommand

/-- The invocation that some arguments ask for. The arguments behind the command are looked at
first, and an option there goes before the same one in front of the command. -/
def parse (env : Environment) (args : List Text) : Except Usage Invocation := do
  let (top, found) ← topLevel.read false .empty args
  match found with
  | none =>
    withoutCommand env top
    .error .missingCommand
  | some (name, rest) =>
    match table.lookup name with
    | none => .error (helpOn rest)
    | some options =>
      let (own, _) ← (level options).read false .empty rest
      let own ← own.settled
      checkVariable env own
      match ofArguments? name own with
      | none => .error .missingArgument
      | some command =>
        let top ← top.settled
        checkVariable env top
        let root := ((own.value? rootOption).or (top.value? rootOption)).or (env rootVariable)
        return ⟨⟨root.getD "."⟩, command⟩

end Command

end DesignRecords
