import DesignRecords.Yaml.Token

namespace DesignRecords.Yaml

/-- A part of a YAML document. An alias has the number of the anchor that it names. -/
inductive Node
  | scalar (tag : Option Tag) (style : Style) (text : Text)
  | sequence (tag : Option Tag) (items : List Node)
  | mapping (tag : Option Tag) (entries : List (Node × Node))
  | alias (anchor : Nat)
deriving Repr

namespace Node

/-- What stands where nothing is written. -/
def empty : Node := .scalar none .plain []

mutual

/-- The number of scalars and aliases in a node, and of the starts and ends of its collections. -/
def size : Node → Nat
  | .scalar _ _ _ => 1
  | .alias _ => 1
  | .sequence _ items => 2 + sizeOfItems items
  | .mapping _ entries => 2 + sizeOfEntries entries

def sizeOfItems : List Node → Nat
  | [] => 0
  | n :: rest => n.size + sizeOfItems rest

def sizeOfEntries : List (Node × Node) → Nat
  | [] => 0
  | (k, v) :: rest => k.size + v.size + sizeOfEntries rest

end

end Node

/-- A YAML document: its outermost node, and the nodes with anchors by the numbers of these. Where
two nodes have one number, the first one in the list counts. -/
structure Graph where
  root : Node
  anchored : List (Nat × Node)
deriving Repr

/-- The document with a single node. -/
def Graph.ofNode (n : Node) : Graph := ⟨n, []⟩

end DesignRecords.Yaml
