import DesignRecords.Document.Basic
import DesignRecords.Text.Line

namespace DesignRecords

/-- The items of a list, each key once, at the place where it first occurs. -/
def distinctBy [DecidableEq β] (key : α → β) : List α → List α
  | [] => []
  | a :: rest => a :: (distinctBy key rest).filter fun b => key b ≠ key a

namespace Diagram

/-- A name with one underscore for each gap of characters other than digits and the letters `A` to
`Z`, in any case. If `gap` is true, the gap at its start has its underscore already. -/
def collapsed (gap : Bool) : Text → Text
  | [] => []
  | c :: name =>
    if c.isAlphanum then c :: collapsed false name
    else if gap then collapsed true name
    else '_' :: collapsed true name

/-- The identifier of a node: its name with an underscore for each gap, and none at the ends. -/
def nodeId (name : Text) : Text :=
  let id := Text.stripped '_' (collapsed false name)
  if id.isEmpty then "node" else id

/-- The line of a component's node. -/
def nodeLine (c : Component) : Text :=
  "    " ++ nodeId c.name ++ "[\"" ++ Text.replaced '"' "#quot;" c.name ++ "\"]"

/-- The ends of the edges of a design, from each component to its dependencies. -/
def edges (components : List Component) : List (Text × Text) :=
  components.flatMap fun c => c.dependencies.map fun name => (nodeId c.name, nodeId name)

def edgeLine (edge : Text × Text) : Text := "    " ++ edge.1 ++ " --> " ++ edge.2

/-- The lines of the diagram of a design with components. -/
def lines (components : List Component) : List Text :=
  "graph TB".toList :: (distinctBy (fun c => nodeId c.name) components).map nodeLine ++
    (distinctBy id (edges components)).map edgeLine

end Diagram

/-- The components of a document and what they depend on, as a diagram in the Mermaid language. -/
def Document.diagram (d : Document) : Text :=
  if d.components.isEmpty then defaultArchitecture else Text.ofLines (Diagram.lines d.components)

end DesignRecords
