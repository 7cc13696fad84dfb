import DesignRecords.Text.Numeral
import DesignRecords.Yaml.Node
import DesignRecords.Yaml.Quoted

namespace DesignRecords.Yaml

namespace Number

/-- The value of a digit of a base up to 16. -/
def digit? (base : Nat) (c : Char) : Option Nat :=
  (Quoted.hexValue? c).filter (· < base)

/-- The value of digits of a base, which must fit into 64 bits. -/
def digits? (base : Nat) (t : Text) : Option Nat := do
  if t.isEmpty then none
  let n ← t.foldlM (fun n c => (digit? base c).map (base * n + ·)) 0
  if n < UInt64.size then some n else none

/-- The value of digits of a base behind `lead`. -/
def based? (lead : Text) (base : Nat) (t : Text) : Option Nat :=
  (Text.after? lead t).bind (digits? base)

/-- A decimal number without zeros in front of it. -/
def decimal? (t : Text) : Option Nat :=
  if 1 < t.length && t.startsWith "0" then none else digits? 10 t

/-- The number that a text stands for, without a sign or with a plus sign. -/
def read? (t : Text) : Option Nat :=
  let t := (Text.after? "+" t).getD t
  (((based? "0x" 16 t).or (based? "0o" 8 t)).or (based? "0b" 2 t)).or (decimal? t)

end Number

/-- How a missing value may be written. -/
def nullWords : List Text := ["null", "Null", "NULL", "~"]

def nullTag : Tag := .ofText "tag:yaml.org,2002:null"

def intTag : Tag := .ofText "tag:yaml.org,2002:int"

/-- The member of an enumeration that a tag names: the text behind its exclamation mark. Other tags
name none. -/
def Tag.member? (tag : Tag) : Option Text :=
  match tag.text? with
  | some ('!' :: name) => some (if name.isEmpty then "!" else name)
  | _ => none

/-- Reading values from the nodes of a document, as long as not too many aliases have been followed:
the state is the number of those that still may be. -/
abbrev Visit := ReaderT Graph (StateT Nat Option)

/-- The values of a record by their names. -/
abbrev Fields := List (Text × Node)

/-- The value of a name. -/
def Fields.get? (fields : Fields) (name : Text) : Option Node := fields.lookup name

namespace Visit

/-- The node that an alias stands for; any other node stands for itself. -/
def follow (n : Node) : Visit Node := do
  match n with
  | .alias anchor =>
    let left ← get
    if left = 0 then failure
    set (left - 1)
    (← read).anchored.lookup anchor
  | n => return n

/-- The text of a scalar. -/
def text (n : Node) : Visit Text := do
  match ← follow n with
  | .scalar _ _ t => return t
  | _ => failure

/-- Whether nothing is written. -/
def isBare : Node → Bool
  | .scalar _ .plain [] => true
  | _ => false

/-- The items of a sequence; where nothing is written there are none. -/
def items (n : Node) : Visit (List Node) := do
  match ← follow n with
  | .sequence _ items => return items
  | n => if isBare n then return [] else failure

/-- The entries of a mapping; where nothing is written there are none. -/
def entries (n : Node) : Visit (List (Node × Node)) := do
  match ← follow n with
  | .mapping _ entries => return entries
  | n => if isBare n then return [] else failure

/-- The fields of a record, of which none in `known` may be there twice. -/
def fields (known : List Text) (n : Node) : Visit Fields := do
  let fields ← (← entries n).mapM fun (k, v) => return (← text k, v)
  let used := (fields.map (·.1)).filter known.contains
  if used.eraseDups == used then return fields else failure

/-- A number. -/
def count (n : Node) : Visit Nat := do
  match ← follow n with
  | .scalar tag style t =>
    if style = .plain || (style = .literal && tag = some intTag) then Number.read? t else failure
  | _ => failure

/-- Whether a plain scalar stands for a missing value. -/
def isNullText (t : Text) : Bool := t.isEmpty || nullWords.contains t

/-- A value that may be missing. -/
def optional (value : Node → Visit α) (n : Node) : Visit (Option α) := do
  let n ← follow n
  match n with
  | .scalar tag .plain t =>
    match tag with
    | none => if isNullText t then return none else return some (← value n)
    | some tag =>
      if tag == nullTag then (if nullWords.contains t then return none else failure)
      else return some (← value n)
  | _ => return some (← value n)

/-- The member of an enumeration that a node names, by its tag if that names one, else by its
text. -/
def choice (member : Text → Option α) (n : Node) : Visit α := do
  match ← follow n with
  | .scalar tag style t =>
    match tag.bind Tag.member? with
    | none => member t
    | some name => if style = .plain && isNullText t then member name else failure
  | _ => failure

end Visit

/-- How many aliases a reader of a document follows at most for each of its nodes. -/
def Graph.patience : Nat := 100

/-- What a reader finds in a document, starting from the outermost node. -/
def Graph.visit? (g : Graph) (reader : Node → Visit α) : Option α :=
  ((reader g.root).run g |>.run (Graph.patience * g.root.size)).map (·.1)

end DesignRecords.Yaml
